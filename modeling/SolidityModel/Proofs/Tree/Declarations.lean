import SolidityModel.Proofs.Tree.Types
import SolidityModel.Tree.Declaration

/-!
# Writing declarations

Variables, structs, enums, functions and modifiers have nodes in either dialect.
What each of their readers finds in the node is said field by field, and the
definition that is read is put together from it.
-/

namespace SolidityModel

/-! ## Variables -/

namespace Initializer

/-- The node of an initial value. -/
def toNode (dialect : Dialect) : Initializer → Json
  | absent => .null
  | literal text => dialect.literal text
  | expression => dialect.node "FunctionCall" []

/-- A written initial value is read as it was. -/
theorem ofNode_toNode (dialect : Dialect) (initializer : Initializer) :
    (match (initializer.toNode dialect).present? with
      | none => absent
      | some value => ofNode dialect value) = initializer := by
  cases dialect <;> cases initializer <;>
    simp [toNode, ofNode, Dialect.literal, ofScalar, Json.scalarText?]

end Initializer

/-- The word for a mutability. -/
def Mutability.keyword : Mutability → String
  | mutable => "mutable"
  | constant => "constant"
  | immutable => "immutable"

namespace VarDecl

/-- The node of a variable, which may be one of the state. -/
def toNode (dialect : Dialect) (ofState : Bool) (decl : VarDecl) : Json :=
  let type := Json.optional (decl.type?.map (·.toNode dialect))
  let initial := decl.initializer.toNode dialect
  match dialect with
  | .legacy =>
      dialect.node "VariableDeclaration"
        [("name", .string decl.name), ("typeName", type), ("isStateVar", .bool ofState),
          ("isDeclaredConst", .bool (decl.mutability = .constant)),
          ("isImmutable", .bool (decl.mutability = .immutable)), ("expression", initial)]
  | .compact =>
      dialect.node "VariableDeclaration"
        [("name", .string decl.name), ("typeName", type), ("stateVariable", .bool ofState),
          ("typeDescriptions", .object [("typeString", .optional (decl.typeText?.map .string))]),
          ("constant", .bool (decl.mutability = .constant)),
          ("mutability", .string decl.mutability.keyword), ("value", initial)]

/-- Whether the type is normal and the type text is the type as it is shown. -/
def isNormal (decl : VarDecl) : Bool :=
  decl.type?.all TypeName.isNormal && decl.typeText? = decl.type?.map TypeName.display

variable {decl : VarDecl} (dialect : Dialect) (ofState : Bool)

theorem kind?_toNode :
    dialect.kind? (decl.toNode dialect ofState) = some "VariableDeclaration" := by
  cases dialect <;> simp [toNode]

theorem describesEnum_toNode : describesEnum dialect (decl.toNode dialect ofState) = false := by
  cases dialect <;> simp [describesEnum, toNode]

theorem typeOfNode?_toNode (normal : decl.type?.all TypeName.isNormal = true) :
    typeOfNode? dialect (decl.toNode dialect ofState) = decl.type? := by
  have typeIs : (decl.toNode dialect ofState).child? "typeName" =
      decl.type?.map (·.toNode dialect) := by
    cases dialect <;> cases type : decl.type? <;> simp [toNode, type]
  rw [typeOfNode?, typeIs, describesEnum_toNode]
  cases declared : decl.type? with
  | none => rfl
  | some type =>
      rw [declared, Option.all_some] at normal
      simp [TypeName.ofNode_toNode dialect type normal]

theorem typeTextOfNode?_toNode (normal : decl.isNormal = true) :
    typeTextOfNode? dialect (decl.toNode dialect ofState) = decl.typeText? := by
  rw [isNormal, Bool.and_eq_true, decide_eq_true_eq] at normal
  have typeRead := typeOfNode?_toNode dialect ofState normal.1
  cases dialect with
  | legacy => rw [typeTextOfNode?, typeRead, normal.2]
  | compact =>
      rw [typeTextOfNode?, typeRead, ← normal.2]
      cases text : decl.typeText? <;> simp [toNode, text]

theorem mutability_ofNode_toNode :
    Mutability.ofNode dialect (decl.toNode dialect ofState) = decl.mutability := by
  cases dialect <;> cases mutability : decl.mutability <;>
    simp [toNode, Mutability.ofNode, mutability, Mutability.keyword]

theorem child?_initialField_toNode :
    (decl.toNode dialect ofState).child? (initialField dialect) =
      (decl.initializer.toNode dialect).present? := by
  cases dialect <;> simp [toNode, initialField]

/-- A written variable is read as it was. -/
theorem ofNode?_toNode (normal : decl.isNormal = true) :
    ofNode? dialect (decl.toNode dialect ofState) none = some decl := by
  have nameIs : (decl.toNode dialect ofState).textField? "name" = some decl.name := by
    cases dialect <;> simp [toNode]
  have typed : decl.type?.all TypeName.isNormal = true := (Bool.and_eq_true_iff.mp normal).1
  rw [ofNode?, nameIs, Option.map_some, typeOfNode?_toNode dialect ofState typed,
    typeTextOfNode?_toNode dialect ofState normal, mutability_ofNode_toNode,
    child?_initialField_toNode, Option.or_none]
  exact congrArg (fun initializer => some { decl with initializer })
    (Initializer.ofNode_toNode dialect decl.initializer)

/-- Written variables are read as they were. -/
theorem filterMap_ofNode?_toNode {decls : List VarDecl} (normal : decls.all isNormal = true) :
    (decls.map (toNode dialect ofState)).filterMap (ofNode? dialect · none) = decls := by
  have each : ∀ decl ∈ decls, ofNode? dialect (decl.toNode dialect ofState) none = some decl :=
    fun decl member => ofNode?_toNode dialect ofState (List.all_eq_true.mp normal decl member)
  rw [filterMap_map_of_forall each]
  exact List.map_id decls

end VarDecl

/-! ## Structs and enums -/

namespace StructDef

/-- The node of a struct. -/
def toNode (dialect : Dialect) (definition : StructDef) : Json :=
  dialect.node "StructDefinition"
    [("name", .string definition.name),
      ("members", .array (definition.members.map (VarDecl.toNode dialect false)))]

@[simp] theorem kind?_toNode (dialect : Dialect) (definition : StructDef) :
    dialect.kind? (definition.toNode dialect) = some "StructDefinition" := Dialect.kind?_node

/-- Whether the members are normal. -/
def isNormal (definition : StructDef) : Bool :=
  definition.members.all VarDecl.isNormal

/-- A written struct is read as it was. -/
theorem ofNode?_toNode {definition : StructDef} (normal : definition.isNormal = true)
    (dialect : Dialect) : ofNode? dialect (definition.toNode dialect) = some definition := by
  have membersRead := VarDecl.filterMap_ofNode?_toNode dialect false normal
  cases dialect <;> simp [ofNode?, toNode, -List.filterMap_map, membersRead]

end StructDef

namespace EnumDef

/-- The node of an enum. -/
def toNode (dialect : Dialect) (definition : EnumDef) : Json :=
  dialect.node "EnumDefinition"
    [("name", .string definition.name),
      ("members", .array (definition.values.map fun value =>
        dialect.node "EnumValue" [("name", .string value)]))]

@[simp] theorem kind?_toNode (dialect : Dialect) (definition : EnumDef) :
    dialect.kind? (definition.toNode dialect) = some "EnumDefinition" := Dialect.kind?_node

/-- A written enum is read as it was. -/
theorem ofNode?_toNode (dialect : Dialect) (definition : EnumDef) :
    ofNode? (definition.toNode dialect) = some definition := by
  cases dialect <;> simp [ofNode?, toNode, List.filterMap_map, Function.comp_def]

end EnumDef

/-! ## Functions and modifiers -/

namespace Callable

/-- The fields of a function or modifier that tell its name and its kind. -/
def headFields (dialect : Dialect) (definition : Callable) : List (String × Json) :=
  match dialect with
  | .legacy =>
      [("name",
          match definition.kind with
          | .function | .modifier => .string definition.name
          | .constructor => .null
          | .fallback | .receive => .string ""),
        ("isConstructor", .bool (definition.kind = .constructor)),
        ("isFallback", .bool (definition.kind = .fallback)),
        ("isReceiveEther", .bool (definition.kind = .receive))]
  | .compact =>
      [("name", .string (if definition.kind.isNamed then definition.name else "")),
        ("kind", .string definition.kind.keyword)]

/-- The node of a function or modifier. -/
def toNode (dialect : Dialect) (definition : Callable) : Json :=
  dialect.node (if definition.kind.isFunction then "FunctionDefinition" else "ModifierDefinition")
    (definition.headFields dialect ++
      [("body", .optional (definition.body?.map fun body =>
        dialect.block (Block.toNodes dialect body)))])

/-- Whether the name is one that functions and modifiers of the kind have. -/
def isNamed (definition : Callable) : Bool :=
  if definition.kind.isNamed then !definition.name.isEmpty
  else definition.name = definition.kind.keyword

/-- Whether the name fits the kind, no location is known, and the statements are
normal. -/
def isNormal (definition : Callable) : Bool :=
  definition.isNamed && (definition.range?.isNone && definition.body?.all Block.isNormal)

/-- The function or modifier as it stands in a tree of a dialect. -/
def inDialect (dialect : Dialect) (definition : Callable) : Callable :=
  { definition with node := definition.toNode dialect }

variable {definition : Callable} {dialect : Dialect}

@[simp] theorem kind?_toNode : dialect.kind? (definition.toNode dialect) =
    some (if definition.kind.isFunction then "FunctionDefinition" else "ModifierDefinition") :=
  Dialect.kind?_node

theorem rangeOfNode?_toNode : rangeOfNode? dialect (definition.toNode dialect) = none := by
  cases dialect <;> simp [rangeOfNode?, toNode, headFields]

theorem body?_toNode (normal : definition.body?.all Block.isNormal = true) :
    ((definition.toNode dialect).child? "body").map (Block.ofNode dialect) = definition.body? := by
  have bodyIs : (definition.toNode dialect).child? "body" =
      definition.body?.map fun body => dialect.block (Block.toNodes dialect body) := by
    cases dialect <;> cases body : definition.body? <;> simp [toNode, headFields, body]
  rw [bodyIs]
  cases written : definition.body? with
  | none => rfl
  | some body =>
      rw [written, Option.all_some] at normal
      simp [Block.ofNode_toNodes dialect body normal]

theorem nameOfNode?_toNode (named : definition.isNamed = true) :
    nameOfNode? definition.kind (definition.toNode dialect) = some definition.name := by
  rw [nameOfNode?]
  cases kind : definition.kind <;> cases dialect <;>
    simp_all [isNamed, toNode, headFields, CallableKind.isNamed, Option.filter_some]

theorem isNamed_of_isNormal (normal : definition.isNormal = true) : definition.isNamed = true :=
  (Bool.and_eq_true_iff.mp normal).1

theorem ofFunctionNode_toNode (named : definition.isNamed = true)
    (isFunction : definition.kind.isFunction = true) (dialect : Dialect) :
    CallableKind.ofFunctionNode dialect (definition.toNode dialect) = definition.kind := by
  cases kind : definition.kind <;> cases dialect <;>
    simp_all [isNamed, toNode, headFields, CallableKind.isNamed, CallableKind.isFunction,
      CallableKind.keyword, CallableKind.ofFunctionNode]

/-- A written function or modifier is read as it was. -/
theorem ofNode?_toNode (normal : definition.isNormal = true) (dialect : Dialect) :
    ofNode? dialect definition.kind (definition.toNode dialect) =
      some (definition.inDialect dialect) := by
  simp only [isNormal, Bool.and_eq_true, Option.isNone_iff_eq_none] at normal
  rcases normal with ⟨named, noRange, bodyNormal⟩
  rw [ofNode?, nameOfNode?_toNode named, Option.map_some, rangeOfNode?_toNode,
    body?_toNode bodyNormal, ← noRange]
  rfl

end Callable

end SolidityModel
