import Mathlib.Logic.Relation
import SolidityModel.Proofs.Tree.Restyling

/-!
# Declarations in trees of different style

A restyling of a tree changes nothing about what is declared: neither the variables and
their types, nor the structs, enums, functions and modifiers, nor the contracts and their
bases.  Only the nodes that functions and modifiers keep are as the tree has them, so
units are compared without these (`SourceUnit.withoutNodes`).  Main statement: any number
of restylings, with values that are no nodes put between the nodes of a unit, leaves every
block and every unit as it was (`SourceUnit.restyled_eq`).
-/

namespace SolidityModel

variable {dialect : Dialect} {node node' : Json}

/-! ## Variables -/

namespace Initializer

theorem ofScalar_of_isContainer {value : Json} (isContainer : value.isContainer = true) :
    ofScalar (some value) = .expression := by
  cases value <;> trivial

theorem ofNode_of_restyles (step : dialect.Restyles node node') :
    ofNode dialect node' = ofNode dialect node := by
  cases dialect with
  | legacy =>
      simp only [ofNode, ofScalar, step.kind?_eq, step.scalarText?_eq "number" rfl,
        step.scalarText?_eq "value" rfl]
  | compact =>
      have value := step.read_child? "value"
        (fun value? => ofScalar (value?.or (node'.child? "hexValue")))
        fun child child' _ inner => by
          rcases (inner.restyles rfl).isContainer with ⟨isContainer, isContainer'⟩
          rw [Option.some_or, Option.some_or, ofScalar_of_isContainer isContainer,
            ofScalar_of_isContainer isContainer']
      have digits := step.read_child? "hexValue"
        (fun digits? => ofScalar ((node.child? "value").or digits?)) fun child child' _ inner => by
          rcases (inner.restyles rfl).isContainer with ⟨isContainer, isContainer'⟩
          cases node.child? "value" with
          | none =>
              rw [Option.none_or, Option.none_or, ofScalar_of_isContainer isContainer,
                ofScalar_of_isContainer isContainer']
          | some => rfl
      simp only [ofNode, step.kind?_eq, step.textField?_eq "kind" rfl, value, digits]

end Initializer

theorem Mutability.ofNode_of_restyles (step : dialect.Restyles node node') :
    ofNode dialect node' = ofNode dialect node := by
  cases dialect with
  | legacy =>
      rw [ofNode, ofNode, step.flag_eq "isDeclaredConst" rfl, step.flag_eq "isImmutable" rfl,
        step.flag_eq "isDeclaredImmutable" rfl]
  | compact => rw [ofNode, ofNode, step.flag_eq "constant" rfl, step.textField?_eq "mutability" rfl]

namespace VarDecl

theorem typeOfNode?_of_restyles (step : dialect.Restyles node node') :
    typeOfNode? dialect node' = typeOfNode? dialect node := by
  rw [typeOfNode?, typeOfNode?, describesEnum_of_restyles step]
  exact step.map_plainChild? "typeName" rfl _ fun child child' _ inner => by
    rw [TypeName.ofNode_of_restyles inner]

theorem typeTextOfNode?_of_restyles (step : dialect.Restyles node node') :
    typeTextOfNode? dialect node' = typeTextOfNode? dialect node := by
  cases dialect with
  | legacy => rw [typeTextOfNode?, typeTextOfNode?, typeOfNode?_of_restyles step]
  | compact =>
      rw [typeTextOfNode?, typeTextOfNode?, typeOfNode?_of_restyles step,
        step.bind_plainChild? "typeDescriptions" rfl _
          fun _ _ inner => inner.textField?_eq "typeString" rfl]

/-- What is read from a node depends on what is read of the two values that may be the
initial one. -/
theorem ofNode?_eq (dialect : Dialect) (node : Json) (outerInitial? : Option Json) :
    ofNode? dialect node outerInitial? = (node.textField? "name").map fun name => {
      name
      type? := typeOfNode? dialect node
      typeText? := typeTextOfNode? dialect node
      mutability := Mutability.ofNode dialect node
      initializer :=
        (((node.child? (initialField dialect)).map (Initializer.ofNode dialect)).or
          (outerInitial?.map (Initializer.ofNode dialect))).getD .absent
    } := by
  rw [ofNode?]
  cases node.child? (initialField dialect) <;> cases outerInitial? <;> rfl

theorem ofNode?_of_restyles (step : dialect.Restyles node node') (outerInitial? : Option Json) :
    ofNode? dialect node' outerInitial? = ofNode? dialect node outerInitial? := by
  rw [ofNode?_eq, ofNode?_eq dialect node, step.textField?_eq "name" rfl,
    typeOfNode?_of_restyles step, typeTextOfNode?_of_restyles step,
    Mutability.ofNode_of_restyles step,
    step.map_plainChild? (initialField dialect) (by cases dialect <;> rfl) _
      fun _ _ _ => Initializer.ofNode_of_restyles]

/-- The variables of a list, which may have their initial value beside them. -/
theorem filterMap_ofNode?_of_restyles (step : dialect.Restyles node node') (name : String)
    (plain : Dialect.isPlain name = true) {outerInitial? outerInitial'? : Option Json}
    (sameInitial : outerInitial'?.map (Initializer.ofNode dialect) =
      outerInitial?.map (Initializer.ofNode dialect)) :
    (node'.items name).filterMap (ofNode? dialect · outerInitial'?) =
      (node.items name).filterMap (ofNode? dialect · outerInitial?) := by
  simp only [ofNode?_eq dialect _ outerInitial'?, sameInitial,
    ← ofNode?_eq dialect _ outerInitial?]
  exact step.filterMap_plainItems name plain _
    fun _ _ inner => ofNode?_of_restyles inner outerInitial?

end VarDecl

/-! ## Structs and enums -/

theorem StructDef.ofNode?_of_restyles (step : dialect.Restyles node node') :
    ofNode? dialect node' = ofNode? dialect node := by
  rw [ofNode?, ofNode?, step.textField?_eq "name" rfl,
    VarDecl.filterMap_ofNode?_of_restyles step "members" rfl rfl]

theorem EnumDef.ofNode?_of_restyles (step : dialect.Restyles node node') :
    ofNode? node' = ofNode? node := by
  rw [ofNode?, ofNode?, step.textField?_eq "name" rfl,
    step.filterMap_plainItems "members" rfl _ fun _ _ inner => inner.textField?_eq "name" rfl]

/-! ## Functions and modifiers -/

theorem CallableKind.ofFunctionNode_of_restyles (step : dialect.Restyles node node') :
    ofFunctionNode dialect node' = ofFunctionNode dialect node := by
  cases dialect with
  | legacy =>
      have isNull := step.read_field? "name" rfl (fun name => (name.map Json.isNull).getD false)
        fun value value' isContainer isContainer' => by cases value <;> cases value' <;> trivial
      rw [ofFunctionNode, ofFunctionNode, isNull, step.flag_eq "isConstructor" rfl,
        step.flag_eq "isReceiveEther" rfl, step.flag_eq "isFallback" rfl,
        step.textField?_eq "name" rfl]
  | compact =>
      rw [ofFunctionNode, ofFunctionNode, step.textField?_eq "kind" rfl,
        step.flag_eq "isConstructor" rfl, step.textField?_eq "name" rfl]

namespace Callable

/-- The definition without the node that it was read from. -/
def withoutNode (definition : Callable) : Callable :=
  { definition with node := .null }

theorem rangeOfNode?_of_restyles (step : dialect.Restyles node node') :
    rangeOfNode? dialect node' = rangeOfNode? dialect node := by
  cases dialect with
  | legacy =>
      have indices := step.flatMap_items "range" (by decide) (fun value => [index? value])
        (fun isList => absurd isList (by decide)) fun value value' _ inner => by
          rcases inner.isContainer with ⟨isContainer, isContainer'⟩
          cases value <;> cases value' <;> trivial
      have indexed : ∀ values : List Json,
          values.mapM index? = (values.flatMap fun value => [index? value]).mapM id := by
        intro values
        rw [← List.map_eq_flatMap, List.mapM_map, Function.id_comp]
      rw [rangeOfNode?, rangeOfNode?, indexed, indices, ← indexed]
  | compact => rw [rangeOfNode?, rangeOfNode?, step.textField?_eq "src" rfl]

theorem withoutNode_ofNode?_of_restyles (step : dialect.Restyles node node')
    (kind : CallableKind) :
    (ofNode? dialect kind node').map withoutNode = (ofNode? dialect kind node).map withoutNode := by
  have sameName : nameOfNode? kind node' = nameOfNode? kind node := by
    rw [nameOfNode?, nameOfNode?, step.textField?_eq "name" rfl]
  have sameBody := step.map_child? "body" (Block.ofNode dialect)
    fun _ _ _ => Block.ofNode_of_restylesField
  rw [ofNode?, ofNode?, sameName, sameBody, rangeOfNode?_of_restyles step, Option.map_map,
    Option.map_map]
  rfl

end Callable

/-! ## Contracts -/

namespace Member

/-- The member without the node that a function or modifier was read from. -/
def withoutNode : Member → Member
  | callable definition => .callable definition.withoutNode
  | member => member

theorem map_withoutNode_callable (definition? : Option Callable) :
    (definition?.map callable).toList.map withoutNode =
      ((definition?.map Callable.withoutNode).map callable).toList := by
  cases definition? <;> rfl

theorem withoutNode_listOfNode_of_restyles (step : dialect.Restyles node node') :
    (listOfNode dialect node').map withoutNode = (listOfNode dialect node).map withoutNode := by
  have sameInitial := step.map_plainChild? "initialValue" rfl (Initializer.ofNode dialect)
    fun _ _ _ => Initializer.ofNode_of_restyles
  rw [listOfNode, listOfNode, step.kind?_eq]
  cases dialect.kind? node with
  | none => rfl
  | some kind =>
      simp only [VarDecl.filterMap_ofNode?_of_restyles step "variables" rfl sameInitial,
        step.flag_eq "stateVariable" rfl, VarDecl.ofNode?_of_restyles step,
        StructDef.ofNode?_of_restyles step, EnumDef.ofNode?_of_restyles step,
        CallableKind.ofFunctionNode_of_restyles step]
      split_ifs
      · rfl
      · rfl
      · rfl
      · rfl
      · rw [map_withoutNode_callable, map_withoutNode_callable,
          Callable.withoutNode_ofNode?_of_restyles step]
      · rw [map_withoutNode_callable, map_withoutNode_callable,
          Callable.withoutNode_ofNode?_of_restyles step]
      · rfl

end Member

namespace ContractDef

/-- The contract without the nodes that functions and modifiers were read from. -/
def withoutNodes (contract : ContractDef) : ContractDef :=
  { contract with members := contract.members.map Member.withoutNode }

theorem kindOfNode_of_restyles (step : dialect.Restyles node node') :
    kindOfNode dialect node' = kindOfNode dialect node := by
  cases dialect with
  | legacy => rw [kindOfNode, kindOfNode, step.textField?_eq "kind" rfl]
  | compact =>
      rw [kindOfNode, kindOfNode, step.textField?_eq "contractKind" rfl,
        step.flag_eq "abstract" rfl]

theorem basesOfNode_of_restyles (step : dialect.Restyles node node') :
    basesOfNode dialect node' = basesOfNode dialect node :=
  step.filterMap_plainItems "baseContracts" rfl _ fun _ _ inner =>
    inner.bind_plainChild? "baseName" rfl _ fun _ _ => referencePath?_of_restyles

theorem withoutNode_membersOfNode_of_restyles (step : dialect.Restyles node node') :
    (membersOfNode dialect node').map Member.withoutNode =
      (membersOfNode dialect node).map Member.withoutNode := by
  rw [membersOfNode, membersOfNode, List.map_flatMap, List.map_flatMap]
  refine step.flatMap_items dialect.membersField (by cases dialect <;> decide) _
    (fun _ value untagged => ?_) fun _ _ _ => Member.withoutNode_listOfNode_of_restyles
  rw [Member.listOfNode, untagged, List.map_nil]

theorem withoutNodes_ofNode?_of_restyles (step : dialect.Restyles node node') :
    (ofNode? dialect node').map withoutNodes = (ofNode? dialect node).map withoutNodes := by
  rw [ofNode?, ofNode?, step.textField?_eq "name" rfl, kindOfNode_of_restyles step,
    basesOfNode_of_restyles step, Option.map_map, Option.map_map]
  simp only [withoutNodes, Function.comp_def, withoutNode_membersOfNode_of_restyles step]

end ContractDef

/-! ## Source units -/

theorem pragmaOfNode_of_restyles (step : dialect.Restyles node node') :
    pragmaOfNode dialect node' = pragmaOfNode dialect node := by
  cases dialect with
  | legacy =>
      rw [pragmaOfNode, pragmaOfNode, step.textField?_eq "name" rfl, step.textField?_eq "value" rfl]
  | compact =>
      have words := step.filterMap_plainItems "literals" rfl Json.text?
        fun value value' inner => by
          rcases inner.isContainer with ⟨isContainer, isContainer'⟩
          rw [Json.text?_of_isContainer isContainer, Json.text?_of_isContainer isContainer']
      rw [pragmaOfNode, pragmaOfNode, words]

namespace UnitItem

/-- The item without the nodes that functions and modifiers were read from. -/
def withoutNodes : UnitItem → UnitItem
  | contract definition => .contract definition.withoutNodes
  | item => item

theorem withoutNodes_ofNode?_of_restyles (step : dialect.Restyles node node') :
    (ofNode? dialect node').map withoutNodes = (ofNode? dialect node).map withoutNodes := by
  rw [ofNode?, ofNode?, step.kind?_eq]
  cases dialect.kind? node with
  | none => rfl
  | some kind =>
      have ofContract : ∀ definition? : Option ContractDef,
          (definition?.map contract).map withoutNodes =
            (definition?.map ContractDef.withoutNodes).map contract := by
        intro definition?
        cases definition? <;> rfl
      dsimp only
      rw [pragmaOfNode_of_restyles step, StructDef.ofNode?_of_restyles step,
        EnumDef.ofNode?_of_restyles step]
      split_ifs
      · rfl
      · rw [ofContract, ofContract, ContractDef.withoutNodes_ofNode?_of_restyles step]
      · rfl
      · rfl
      · rfl

end UnitItem

namespace SourceUnit

/-- The unit without the nodes that functions and modifiers were read from. -/
def withoutNodes (unit : SourceUnit) : SourceUnit where
  items := unit.items.map UnitItem.withoutNodes

/-- A unit is read the same after a change of style. -/
theorem withoutNodes_ofNodes_of_restyles {nodes nodes' : List Json}
    (step : Restyles nodes nodes') :
    (ofNodes nodes').withoutNodes = (ofNodes nodes).withoutNodes := by
  apply congrArg SourceUnit.mk
  simp only [ofNodes, List.map_filterMap]
  cases step with
  | stray noNode => simp [noNode]
  | node tagged step =>
      simp only [List.filterMap_append, List.filterMap_cons, tagged, step.detect?_eq,
        Option.bind_some, UnitItem.withoutNodes_ofNode?_of_restyles step]

/-- Any number of changes of style leaves every block and every unit as it was. -/
theorem restyled_eq :
    (∀ (dialect : Dialect) (node node' : Json),
      Relation.ReflTransGen dialect.Restyles node node' →
        Block.ofNode dialect node' = Block.ofNode dialect node) ∧
      ∀ nodes nodes' : List Json, Relation.ReflTransGen Restyles nodes nodes' →
        (ofNodes nodes').withoutNodes = (ofNodes nodes).withoutNodes := by
  constructor
  · intro dialect node node' steps
    induction steps with
    | refl => rfl
    | tail _ step ih => exact (Block.ofNode_of_restyles step).trans ih
  · intro nodes nodes' steps
    induction steps with
    | refl => rfl
    | tail _ step ih => exact (withoutNodes_ofNodes_of_restyles step).trans ih

/-- The assignment `x = 1` as a statement. -/
def assignmentNode : Json :=
  Dialect.legacy.node "ExpressionStatement"
    [("expression", Dialect.legacy.node "BinaryOperation"
      [("operator", .string "="),
        ("left", Dialect.legacy.node "Identifier" [("name", .string "x")])])]

/-- A conditional with one branch. -/
def conditionalNode (branch : Json) : Json :=
  Dialect.legacy.node "IfStatement" [("TrueBody", branch), ("FalseBody", .null)]

/-- A contract with one function and values without a kind before it. -/
def contractNode (strays : List Json) (body : Json) : Json :=
  Dialect.legacy.node "ContractDefinition"
    [("name", .string "Guard"), ("subNodes", .array (strays ++
      [Dialect.legacy.node "FunctionDefinition" [("name", .string "set"), ("body", body)]]))]

theorem restyles_conditionalNode {branch branch' : Json}
    (step : Dialect.legacy.RestylesField "TrueBody" branch branch') :
    Dialect.legacy.Restyles (conditionalNode branch) (conditionalNode branch') :=
  @Dialect.Restyles.field _ [("type", .string "IfStatement")] [("FalseBody", .null)] _ _ _ step

theorem restyles_contractNode (strays : List Json) {body body' : Json}
    (step : Dialect.legacy.RestylesField "body" body body') :
    Dialect.legacy.Restyles (contractNode strays body) (contractNode strays body') :=
  have function := @Dialect.Restyles.field _
    [("type", .string "FunctionDefinition"), ("name", .string "set")] [] _ _ _ step
  @Dialect.Restyles.field _ [("type", .string "ContractDefinition"), ("name", .string "Guard")] []
    _ _ _ (.within (@Dialect.Restyles.item _ strays [] _ _ function))

/-- A value that is no node between the nodes of a unit, one without a kind among the
declarations of a contract, and braces around the body of a function and around the
branch inside of it. -/
theorem restyled_eq_guard :
    let branch := Dialect.legacy.block [assignmentNode]
    let body := Dialect.legacy.block [conditionalNode branch]
    let bare := [contractNode [] (conditionalNode assignmentNode)]
    let styled := [.null, contractNode [.string ";"] body]
    (Relation.ReflTransGen Dialect.legacy.Restyles (conditionalNode assignmentNode)
        (conditionalNode branch) ∧
      Block.ofNode .legacy (conditionalNode branch) =
        Block.ofNode .legacy (conditionalNode assignmentNode)) ∧
      Relation.ReflTransGen Restyles bare styled ∧
        (ofNodes styled).withoutNodes = (ofNodes bare).withoutNodes := by
  intro branch body bare styled
  have braced : Dialect.legacy.Restyles (conditionalNode assignmentNode)
      (conditionalNode branch) :=
    restyles_conditionalNode (.braces (by decide) nofun (by decide) rfl rfl)
  have blockBraced : Dialect.legacy.Restyles
      (Dialect.legacy.block [conditionalNode assignmentNode]) body :=
    @Dialect.Restyles.field _ [("type", .string "Block")] [] _ _ _
      (.within (@Dialect.Restyles.item _ [] [] _ _ braced))
  have strayMember : Dialect.legacy.Restyles (contractNode [] (conditionalNode assignmentNode))
      (contractNode [.string ";"] (conditionalNode assignmentNode)) :=
    @Dialect.Restyles.field _ [("type", .string "ContractDefinition"), ("name", .string "Guard")]
      [] _ _ _ (@Dialect.RestylesField.stray _ _ [] _ _ (by decide) rfl)
  have bodyBraced : Dialect.legacy.Restyles
      (contractNode [.string ";"] (conditionalNode assignmentNode))
      (contractNode [.string ";"] (Dialect.legacy.block [conditionalNode assignmentNode])) :=
    restyles_contractNode _ (.braces (by decide) nofun (by decide) rfl rfl)
  have steps : Relation.ReflTransGen Restyles bare styled :=
    (((Relation.ReflTransGen.single (@Restyles.stray [] bare .null rfl)).tail
      (@Restyles.node [.null] [] .legacy _ _ rfl strayMember)).tail
      (@Restyles.node [.null] [] .legacy _ _ rfl bodyBraced)).tail
      (@Restyles.node [.null] [] .legacy _ _ rfl (restyles_contractNode _ (.within blockBraced)))
  exact ⟨⟨.single braced, restyled_eq.1 .legacy _ _ (.single braced)⟩, steps,
    restyled_eq.2 _ _ steps⟩

end SourceUnit

end SolidityModel
