import SolidityModel.Proofs.Tree.Body
import SolidityModel.Text.Integer
import SolidityModel.Tree.TypeName

/-!
# Writing types

Each type has a node in either dialect, and the node is read as the type.  The
length of an array that is the dotted path of a constant is written as the chain
of member accesses that spells the path.
-/

namespace SolidityModel

/-! ## Dotted paths -/

/-- A list of characters is made up of its parts and the separators between
them. -/
theorem Text.exists_splitAt (separator : Char) (chars : List Char) :
    ∃ first rest, splitAt separator chars = first :: rest ∧
      first ++ rest.flatMap (separator :: ·) = chars := by
  induction chars with
  | nil => exact ⟨[], [], rfl, rfl⟩
  | cons char chars ih =>
      rcases ih with ⟨first, rest, parts, spelled⟩
      rw [splitAt, parts]
      by_cases isSeparator : char = separator
      · refine ⟨[], first :: rest, if_pos isSeparator, ?_⟩
        rw [List.flatMap_cons, List.nil_append, List.cons_append, spelled, isSeparator]
      · refine ⟨char :: first, rest, if_neg isSeparator, ?_⟩
        rw [List.cons_append, spelled]

namespace Expr

/-- Member accesses over an expression, in the order of the names. -/
def accesses (object : Expr) (names : List (List Char)) : Expr :=
  names.foldl (fun object name => .memberAccess object (String.ofList name)) object

/-- The expression that a dotted path spells. -/
def ofPath (path : String) : Expr :=
  match Text.splitAt '.' path.toList with
  | [] => .identifier path
  | first :: rest => (identifier (String.ofList first)).accesses rest

theorem isNormal_accesses (object : Expr) (names : List (List Char)) :
    (object.accesses names).isNormal = object.isNormal := by
  induction names generalizing object with
  | nil => rfl
  | cons name rest ih => exact ih _

theorem dottedPath?_accesses {object : Expr} {path : List Char}
    (hasPath : object.dottedPath? = some (String.ofList path)) (names : List (List Char)) :
    (object.accesses names).dottedPath? =
      some (String.ofList (path ++ names.flatMap ('.' :: ·))) := by
  induction names generalizing object path with
  | nil => simpa [accesses] using hasPath
  | cons name rest ih =>
      have longer : (memberAccess object (String.ofList name)).dottedPath? =
          some (String.ofList (path ++ '.' :: name)) := by
        rw [dottedPath?, hasPath, Option.map_some, Option.some_inj, ← String.toList_inj]
        simp
      rw [List.flatMap_cons, ← List.append_assoc]
      exact ih longer

@[simp] theorem isNormal_ofPath (path : String) : (ofPath path).isNormal = true := by
  rw [ofPath]
  split
  · rfl
  · exact isNormal_accesses _ _

@[simp] theorem dottedPath?_ofPath (path : String) : (ofPath path).dottedPath? = some path := by
  rcases Text.exists_splitAt '.' path.toList with ⟨first, rest, parts, spelled⟩
  rw [ofPath, parts]
  dsimp only
  rw [dottedPath?_accesses rfl, spelled, String.ofList_toList]

end Expr

/-! ## Array lengths -/

namespace ArrayLength

/-- The node of the length of an array. -/
def toNode (dialect : Dialect) : ArrayLength → Json
  | literal text => dialect.literal text
  | constant path => (Expr.ofPath path).toNode dialect

@[simp] theorem present?_toNode (dialect : Dialect) (length : ArrayLength) :
    (length.toNode dialect).present? = some (length.toNode dialect) := by
  cases length <;> simp [toNode]

/-- An expression with a path is read as the constant of this path. -/
theorem ofNode?_of_dottedPath? {dialect : Dialect} {expr : Expr} {path : String}
    (normal : expr.isNormal = true) (hasPath : expr.dottedPath? = some path) :
    ofNode? dialect (expr.toNode dialect) = some (.constant path) := by
  have exprRead := Expr.ofNode_toNode dialect expr normal
  cases expr with
  | identifier name =>
      cases hasPath
      rw [Expr.toNode] at exprRead ⊢
      cases dialect <;> simp [ofNode?, exprRead, constantOf?]
  | memberAccess object member =>
      rw [Expr.toNode] at exprRead ⊢
      cases dialect <;> simp [ofNode?, exprRead, constantOf?, hasPath]
  | assignment | indexAccess | literal | other => cases hasPath

/-- A written length is read as it was. -/
theorem ofNode?_toNode (dialect : Dialect) (length : ArrayLength) :
    ofNode? dialect (length.toNode dialect) = some length := by
  cases length with
  | literal text =>
      have literalRead := Expr.ofNode_toNode dialect (.literal text) rfl
      rw [Expr.toNode] at literalRead
      cases dialect with
      | legacy => simp [toNode, ofNode?, Dialect.literal, Json.scalarText?]
      | compact => simp [toNode, ofNode?, literalRead]
  | constant path => exact ofNode?_of_dottedPath? (by simp) (by simp)

end ArrayLength

/-! ## Type names -/

/-- The node of a reference by a dotted path. -/
def Dialect.reference (dialect : Dialect) (path : String) : Json :=
  match dialect with
  | legacy => dialect.node "UserDefinedTypeName" [("namePath", .string path)]
  | compact =>
      dialect.node "UserDefinedTypeName"
        [("pathNode", dialect.node "IdentifierPath" [("name", .string path)])]

@[simp] theorem present?_reference (dialect : Dialect) (path : String) :
    (dialect.reference path).present? = some (dialect.reference path) := by
  cases dialect <;> rfl

@[simp] theorem referencePath?_reference (dialect : Dialect) (path : String) :
    referencePath? dialect (dialect.reference path) = some path := by
  cases dialect <;> simp [referencePath?, Dialect.reference]

namespace TypeName

/-- The node of a type. -/
def toNode (dialect : Dialect) : TypeName → Json
  | elementary name => dialect.node "ElementaryTypeName" [("name", .string name)]
  | userDefined path _ => dialect.reference path
  | mapping key value =>
      dialect.node "Mapping"
        [("keyType", key.toNode dialect), ("valueType", value.toNode dialect)]
  | array base length =>
      dialect.node "ArrayTypeName"
        [(dialect.elementField, base.toNode dialect),
          ("length", .optional (length.map (·.toNode dialect)))]
  | function => dialect.node "FunctionTypeName" []
  | unknown kind => dialect.node kind []

/-- Whether no reference is known to be to an enum, and no unknown type has the tag
of a function type. -/
def isNormal : TypeName → Bool
  | elementary _ => true
  | userDefined _ knownEnum => !knownEnum
  | mapping key value => key.isNormal && value.isNormal
  | array base _ => base.isNormal
  | function => true
  | unknown kind => kind ≠ "FunctionTypeName"

@[simp] theorem present?_toNode (dialect : Dialect) (type : TypeName) :
    (type.toNode dialect).present? = some (type.toNode dialect) := by
  cases type <;> simp [toNode]

@[simp] theorem markEnum_false (type : TypeName) : type.markEnum false = type := by
  cases type <;> simp [markEnum]

variable {dialect : Dialect} {node : Json}

theorem ofNode_of_mapping (key value : Json) (kind : dialect.kind? node = some "Mapping")
    (keyIs : node.child? "keyType" = some key) (valueIs : node.child? "valueType" = some value) :
    ofNode dialect node = .mapping (ofNode dialect key) (ofNode dialect value) := by
  rw [ofNode, kind]
  dsimp only
  rw [if_neg (by decide), if_neg (by decide), if_pos rfl]
  split <;> simp_all

theorem ofNode_of_array (kind : dialect.kind? node = some "ArrayTypeName") :
    ofNode dialect node =
      (node.child? dialect.elementField).elim (.unknown "ArrayTypeName") fun base =>
        .array (ofNode dialect base)
          ((node.child? "length").bind (ArrayLength.ofNode? dialect)) := by
  rw [ofNode, kind]
  dsimp only
  rw [if_neg (by decide), if_neg (by decide), if_neg (by decide), if_pos rfl]
  split <;> simp_all

/-- A written type is read as it was. -/
theorem ofNode_toNode (dialect : Dialect) :
    (type : TypeName) → type.isNormal = true → ofNode dialect (type.toNode dialect) = type
  | elementary name, _ => by
      rw [toNode, ofNode]
      cases dialect <;> simp
  | userDefined path knownEnum, normal => by
      have unknown : knownEnum = false := by simpa [isNormal] using normal
      have referenceRead := referencePath?_reference dialect path
      rw [toNode, unknown, ofNode]
      cases dialect <;> simp_all [Dialect.reference, describesEnum]
  | mapping key value, normal => by
      rw [isNormal, Bool.and_eq_true] at normal
      have keyRead := ofNode_toNode dialect key normal.1
      have valueRead := ofNode_toNode dialect value normal.2
      rw [toNode, ofNode_of_mapping (key.toNode dialect) (value.toNode dialect) Dialect.kind?_node,
        keyRead, valueRead]
      all_goals cases dialect <;> simp
  | array base length, normal => by
      have baseRead := ofNode_toNode dialect base normal
      rw [toNode, ofNode_of_array Dialect.kind?_node]
      cases dialect <;> cases length <;>
        simp [Dialect.elementField, ArrayLength.ofNode?_toNode, baseRead]
  | function, _ => by
      rw [toNode, ofNode, Dialect.kind?_node]
      rfl
  | unknown kind, normal => by
      have foreign : kind ≠ "FunctionTypeName" := by simpa [isNormal] using normal
      by_cases isArray : kind = "ArrayTypeName"
      · rw [isArray, toNode, ofNode_of_array Dialect.kind?_node]
        cases dialect <;> simp [Dialect.elementField]
      · rw [toNode, ofNode]
        cases dialect <;> simp [referencePath?, foreign, isArray]

end TypeName

end SolidityModel
