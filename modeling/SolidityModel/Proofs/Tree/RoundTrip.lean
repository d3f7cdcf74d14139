import Mathlib.Data.List.Basic
import SolidityModel.Proofs.Tree.Declarations
import SolidityModel.Tree.SourceUnit

/-!
# Writing source units

Every source unit in normal form can be written in either dialect, node by node,
and is read back as it was (`SourceUnit.ofNodes_toNodes`).  Only the nodes that
the functions and modifiers of a unit keep change with the dialect: they are those
of the written unit.
-/

namespace SolidityModel

/-! ## Contracts -/

namespace Member

/-- The node of a member of a contract. -/
def toNode (dialect : Dialect) : Member → Json
  | stateVariable decl =>
      match dialect with
      | .legacy =>
          dialect.node "StateVariableDeclaration"
            [("variables", .array [decl.toNode dialect true]), ("initialValue", .null)]
      | .compact => decl.toNode dialect true
  | structDef definition => definition.toNode dialect
  | enumDef definition => definition.toNode dialect
  | callable definition => definition.toNode dialect
  | other kind => dialect.node kind []

/-- The tags of members that a contract declares by name. -/
def interpretedKinds : List String :=
  ["StateVariableDeclaration", "StructDefinition", "EnumDefinition", "FunctionDefinition",
    "ModifierDefinition"]

/-- Whether what is declared is normal, and no member of another kind has a tag of
one that is. -/
def isNormal : Member → Bool
  | stateVariable decl => decl.isNormal
  | structDef definition => definition.isNormal
  | enumDef _ => true
  | callable definition => definition.isNormal
  | other kind => kind ∉ interpretedKinds

/-- The member as it stands in a tree of a dialect. -/
def inDialect (dialect : Dialect) : Member → Member
  | callable definition => .callable (definition.inDialect dialect)
  | member => member

/-- A written member is read as it was. -/
theorem listOfNode_toNode {member : Member} (normal : member.isNormal = true)
    (dialect : Dialect) :
    listOfNode dialect (member.toNode dialect) = [member.inDialect dialect] := by
  cases member with
  | stateVariable decl =>
      have declRead := VarDecl.ofNode?_toNode dialect true normal
      cases dialect with
      | legacy => simp [listOfNode, toNode, declRead, inDialect]
      | compact =>
          have ofState : (decl.toNode .compact true).flag "stateVariable" = true := by
            simp [VarDecl.toNode]
          simp [listOfNode, toNode, VarDecl.kind?_toNode, ofState, declRead, inDialect]
  | structDef definition =>
      have definitionRead := StructDef.ofNode?_toNode normal dialect
      rw [toNode, listOfNode, StructDef.kind?_toNode]
      simp [definitionRead, inDialect]
  | enumDef definition =>
      rw [toNode, listOfNode, EnumDef.kind?_toNode]
      simp [EnumDef.ofNode?_toNode, inDialect]
  | callable definition =>
      have definitionRead := Callable.ofNode?_toNode normal dialect
      rw [toNode, listOfNode, Callable.kind?_toNode]
      by_cases isModifier : definition.kind = .modifier
      · rw [isModifier] at definitionRead ⊢
        simp [CallableKind.isFunction, definitionRead, inDialect]
      · have isFunction : definition.kind.isFunction = true := decide_eq_true isModifier
        have kindRead := Callable.ofFunctionNode_toNode (Callable.isNamed_of_isNormal normal)
          isFunction dialect
        simp [isFunction, kindRead, definitionRead, inDialect]
  | other kind =>
      rw [toNode, listOfNode, Dialect.kind?_node]
      simp_all [isNormal, interpretedKinds, inDialect]

end Member

namespace ContractDef

/-- The fields of a contract that tell its kind. -/
def kindFields (dialect : Dialect) (kind : ContractKind) : List (String × Json) :=
  match dialect with
  | .legacy => [("kind", .string kind.keyword)]
  | .compact =>
      [("contractKind", .string (if kind = .abstract then "contract" else kind.keyword)),
        ("abstract", .bool (kind = .abstract))]

/-- The node of a base of a contract. -/
def baseToNode (dialect : Dialect) (base : String) : Json :=
  dialect.node "InheritanceSpecifier" [("baseName", dialect.reference base)]

/-- The node of a contract. -/
def toNode (dialect : Dialect) (contract : ContractDef) : Json :=
  dialect.node "ContractDefinition"
    (("name", .string contract.name) :: kindFields dialect contract.kind ++
      [("baseContracts", .array (contract.bases.map (baseToNode dialect))),
        (dialect.membersField, .array (contract.members.map (Member.toNode dialect)))])

/-- Whether the members are normal. -/
def isNormal (contract : ContractDef) : Bool :=
  contract.members.all Member.isNormal

/-- The contract as it stands in a tree of a dialect. -/
def inDialect (dialect : Dialect) (contract : ContractDef) : ContractDef :=
  { contract with members := contract.members.map (Member.inDialect dialect) }

variable {contract : ContractDef} {dialect : Dialect}

@[simp] theorem kind?_toNode :
    dialect.kind? (contract.toNode dialect) = some "ContractDefinition" := Dialect.kind?_node

theorem kindOfNode_toNode : kindOfNode dialect (contract.toNode dialect) = contract.kind := by
  cases dialect <;> cases kind : contract.kind <;>
    simp [kindOfNode, toNode, kindFields, kind, ContractKind.keyword]

theorem basesOfNode_toNode : basesOfNode dialect (contract.toNode dialect) = contract.bases := by
  have baseRead : ∀ base, ((baseToNode dialect base).child? "baseName").bind
      (referencePath? dialect) = some base := by
    intro base
    cases dialect <;> simp [baseToNode]
  have basesAre : (contract.toNode dialect).items "baseContracts" =
      contract.bases.map (baseToNode dialect) := by
    cases dialect <;> simp [toNode, kindFields]
  rw [basesOfNode, basesAre, filterMap_map_of_forall fun base _ => baseRead base]
  exact List.map_id contract.bases

theorem membersOfNode_toNode (normal : contract.isNormal = true) :
    membersOfNode dialect (contract.toNode dialect) =
      contract.members.map (Member.inDialect dialect) := by
  have membersAre : (contract.toNode dialect).items dialect.membersField =
      contract.members.map (Member.toNode dialect) := by
    cases dialect <;> simp [toNode, kindFields, Dialect.membersField]
  rw [membersOfNode, membersAre, List.flatMap_map, List.map_eq_flatMap]
  apply List.flatMap_congr
  intro member isMember
  exact Member.listOfNode_toNode (List.all_eq_true.mp normal member isMember) dialect

/-- A written contract is read as it was. -/
theorem ofNode?_toNode (normal : contract.isNormal = true) (dialect : Dialect) :
    ofNode? dialect (contract.toNode dialect) = some (contract.inDialect dialect) := by
  have nameIs : (contract.toNode dialect).textField? "name" = some contract.name := by
    cases dialect <;> simp [toNode]
  rw [ofNode?, nameIs, Option.map_some, kindOfNode_toNode, basesOfNode_toNode,
    membersOfNode_toNode normal]
  rfl

end ContractDef

/-! ## Source units -/

namespace UnitItem

/-- The node of an item of a source unit. -/
def toNode (dialect : Dialect) : UnitItem → Json
  | pragma name value =>
      match dialect with
      | .legacy => dialect.node "PragmaDirective" [("name", .string name), ("value", .string value)]
      | .compact =>
          dialect.node "PragmaDirective" [("literals", .array [.string name, .string value])]
  | contract definition => definition.toNode dialect
  | structDef definition => definition.toNode dialect
  | enumDef definition => definition.toNode dialect
  | other kind => dialect.node kind []

/-- The tags of items that a unit declares by name. -/
def interpretedKinds : List String :=
  ["PragmaDirective", "ContractDefinition", "StructDefinition", "EnumDefinition"]

/-- Whether what is declared is normal, and no item of another kind has a tag of one
that is. -/
def isNormal : UnitItem → Bool
  | pragma _ _ => true
  | contract definition => definition.isNormal
  | structDef definition => definition.isNormal
  | enumDef _ => true
  | other kind => kind ∉ interpretedKinds

/-- The item as it stands in a tree of a dialect. -/
def inDialect (dialect : Dialect) : UnitItem → UnitItem
  | contract definition => .contract (definition.inDialect dialect)
  | item => item

variable {item : UnitItem}

theorem detect?_toNode (dialect : Dialect) (item : UnitItem) :
    Dialect.detect? (item.toNode dialect) = some dialect := by
  cases item with
  | pragma name value => cases dialect <;> exact Dialect.detect?_node rfl
  | contract definition => cases dialect <;> exact Dialect.detect?_node rfl
  | structDef definition => exact Dialect.detect?_node rfl
  | enumDef definition => exact Dialect.detect?_node rfl
  | other kind => exact Dialect.detect?_node rfl

/-- A written item is read as it was. -/
theorem ofNode?_toNode (normal : item.isNormal = true) (dialect : Dialect) :
    ofNode? dialect (item.toNode dialect) = some (item.inDialect dialect) := by
  cases item with
  | pragma name value =>
      cases dialect <;> simp [toNode, ofNode?, pragmaOfNode, inDialect]
  | contract definition =>
      have definitionRead := ContractDef.ofNode?_toNode normal dialect
      rw [toNode, ofNode?, ContractDef.kind?_toNode]
      simp [definitionRead, inDialect]
  | structDef definition =>
      have definitionRead := StructDef.ofNode?_toNode normal dialect
      rw [toNode, ofNode?, StructDef.kind?_toNode]
      simp [definitionRead, inDialect]
  | enumDef definition =>
      rw [toNode, ofNode?, EnumDef.kind?_toNode]
      simp [EnumDef.ofNode?_toNode, inDialect]
  | other kind =>
      rw [toNode, ofNode?, Dialect.kind?_node]
      simp_all [isNormal, interpretedKinds, inDialect]

end UnitItem

namespace SourceUnit

/-- The nodes of a source unit. -/
def toNodes (dialect : Dialect) (unit : SourceUnit) : List Json :=
  unit.items.map (UnitItem.toNode dialect)

/-- Whether all items are normal. -/
def isNormal (unit : SourceUnit) : Bool :=
  unit.items.all UnitItem.isNormal

/-- The unit as it stands in a tree of a dialect: functions and modifiers have the
nodes that they are written as. -/
def inDialect (dialect : Dialect) (unit : SourceUnit) : SourceUnit where
  items := unit.items.map (UnitItem.inDialect dialect)

variable {unit : SourceUnit}

/-- A written unit is read as it was, in the dialect in which it was written. -/
theorem ofNodes_toNodes (normal : unit.isNormal = true) (dialect : Dialect) :
    (∀ node ∈ unit.toNodes dialect, Dialect.detect? node = some dialect) ∧
      ofNodes (unit.toNodes dialect) = unit.inDialect dialect := by
  constructor
  · intro node isNode
    rcases List.mem_map.mp isNode with ⟨item, -, rfl⟩
    exact UnitItem.detect?_toNode dialect item
  · apply congrArg SourceUnit.mk
    apply filterMap_map_of_forall
    intro item isItem
    rw [UnitItem.detect?_toNode, Option.bind_some]
    exact UnitItem.ofNode?_toNode (List.all_eq_true.mp normal item isItem) dialect

/-- An auction with something of each kind. -/
def auctionUnit : SourceUnit where
  items :=
    let bids : Expr :=
      .indexAccess (.identifier "bids") (some (.memberAccess (.identifier "msg") "sender"))
    let slots : TypeName := .array (.array (.elementary "uint") (some (.literal "4")))
      (some (.constant "Limits.SLOTS"))
    [.pragma "solidity" "^0.8.0", .other "ImportDirective",
      .enumDef ⟨"Phase", ["Open", "Closed"]⟩,
      .structDef ⟨"Bid", [⟨"slots", some slots, some "uint[4][Limits.SLOTS]", .mutable, .absent⟩]⟩,
      .contract ⟨"Auction", .abstract, ["Lib.Owned", "Clock"],
        [.stateVariable ⟨"bids",
            some (.mapping (.elementary "address") (.userDefined "Bid" false)),
            some "mapping(address => Bid)", .mutable, .absent⟩,
          .stateVariable ⟨"hook", some .function, some "function", .immutable, .expression⟩,
          .stateVariable ⟨"fee", none, none, .constant, .literal "0x2A"⟩,
          .other "EventDefinition",
          .callable ⟨"constructor", .constructor, none, some [.other "Block"], .null⟩,
          .callable ⟨"bid", .function, none,
            some [.conditional [.expression (.assignment "+=" bids)]
              (some [.forLoop [.expression (.other "FunctionCall")]])], .null⟩,
          .callable ⟨"open", .modifier, none, none, .null⟩]⟩]

theorem auctionUnit_ofNodes_toNodes :
    auctionUnit.isNormal = true ∧ ∀ dialect : Dialect,
      (∀ node ∈ auctionUnit.toNodes dialect, Dialect.detect? node = some dialect) ∧
        ofNodes (auctionUnit.toNodes dialect) = auctionUnit.inDialect dialect :=
  have normal : auctionUnit.isNormal = true := by decide +kernel
  ⟨normal, ofNodes_toNodes normal⟩

end SourceUnit

end SolidityModel
