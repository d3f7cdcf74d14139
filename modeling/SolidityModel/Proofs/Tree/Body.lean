import SolidityModel.Proofs.Tree.Node
import SolidityModel.Tree.Stmt

/-!
# Writing expressions and statements

Each expression and each statement has a node in either dialect, and the node is
read as what it was written for.  A tag alone may stand for an expression or a
statement of any other kind, unless readers take it for one of theirs.
-/

namespace SolidityModel

namespace Dialect

/-- The node of a literal. -/
def literal (dialect : Dialect) (text : String) : Json :=
  match dialect with
  | legacy => dialect.node "NumberLiteral" [("number", .string text)]
  | compact => dialect.node "Literal" [("kind", .string "number"), ("value", .string text)]

/-- The node of statements between braces. -/
def block (dialect : Dialect) (statements : List Json) : Json :=
  dialect.node "Block" [("statements", .array statements)]

@[simp] theorem present?_literal (dialect : Dialect) (text : String) :
    (dialect.literal text).present? = some (dialect.literal text) := by
  cases dialect <;> rfl

@[simp] theorem present?_block (dialect : Dialect) (statements : List Json) :
    (dialect.block statements).present? = some (dialect.block statements) := rfl

end Dialect

/-! ## Expressions -/

namespace Expr

/-- The node of an expression. -/
def toNode (dialect : Dialect) : Expr → Json
  | assignment operator target =>
      dialect.node dialect.assignmentKind
        [("operator", .string operator), (dialect.targetField, target.toNode dialect)]
  | indexAccess base none =>
      dialect.node "IndexAccess"
        [(dialect.indexedField, base.toNode dialect), (dialect.indexField, .null)]
  | indexAccess base (some index) =>
      dialect.node "IndexAccess"
        [(dialect.indexedField, base.toNode dialect), (dialect.indexField, index.toNode dialect)]
  | memberAccess object member =>
      dialect.node "MemberAccess"
        [("expression", object.toNode dialect), ("memberName", .string member)]
  | identifier name => dialect.node "Identifier" [("name", .string name)]
  | literal text => dialect.literal text
  | other kind => dialect.node kind []

/-- Whether the operator of every assignment is one of an assignment. -/
def isNormal : Expr → Bool
  | assignment operator target => isAssignmentOperator operator && target.isNormal
  | indexAccess base none => base.isNormal
  | indexAccess base (some index) => base.isNormal && index.isNormal
  | memberAccess object _ => object.isNormal
  | identifier _ => true
  | literal _ => true
  | other _ => true

@[simp] theorem present?_toNode (dialect : Dialect) (expr : Expr) :
    (expr.toNode dialect).present? = some (expr.toNode dialect) := by
  cases expr with
  | indexAccess base index => cases index <;> rfl
  | literal text => exact dialect.present?_literal text
  | assignment | memberAccess | identifier | other => rfl

variable {dialect : Dialect} {node : Json}

/-! ### What the nodes with children are read as -/

theorem ofNode_of_assignment {operator : String} {target : Json}
    (kind : dialect.kind? node = some dialect.assignmentKind)
    (operatorIs : node.textField? "operator" = some operator)
    (targetIs : node.child? dialect.targetField = some target)
    (assigns : isAssignmentOperator operator = true) :
    ofNode dialect node = .assignment operator (ofNode dialect target) := by
  rw [ofNode, kind]
  dsimp only
  rw [if_pos rfl]
  split <;> simp_all

theorem ofNode_of_indexAccess (kind : dialect.kind? node = some "IndexAccess") :
    ofNode dialect node =
      (node.child? dialect.indexedField).elim (.other "IndexAccess") fun base =>
        .indexAccess (ofNode dialect base)
          ((node.child? dialect.indexField).map (ofNode dialect)) := by
  have notAssignment : "IndexAccess" ≠ dialect.assignmentKind := by cases dialect <;> decide
  rw [ofNode, kind]
  dsimp only
  rw [if_neg notAssignment, if_pos rfl]
  split
  · simp_all
  · split <;> simp_all

theorem ofNode_of_memberAccess {object : Json} {member : String}
    (kind : dialect.kind? node = some "MemberAccess")
    (objectIs : node.child? "expression" = some object)
    (memberIs : node.textField? "memberName" = some member) :
    ofNode dialect node = .memberAccess (ofNode dialect object) member := by
  have notAssignment : "MemberAccess" ≠ dialect.assignmentKind := by cases dialect <;> decide
  rw [ofNode, kind]
  dsimp only
  rw [if_neg notAssignment, if_neg (by decide), if_pos rfl]
  split <;> simp_all

/-- A written expression is read as it was. -/
theorem ofNode_toNode (dialect : Dialect) :
    (expr : Expr) → expr.isNormal = true → ofNode dialect (expr.toNode dialect) = expr
  | assignment operator target, normal => by
      rw [isNormal, Bool.and_eq_true] at normal
      have targetRead := ofNode_toNode dialect target normal.2
      rw [toNode, ofNode_of_assignment Dialect.kind?_node _ _ normal.1, targetRead]
      all_goals cases dialect <;> simp [Dialect.targetField]
  | indexAccess base none, normal => by
      have baseRead := ofNode_toNode dialect base normal
      rw [toNode, ofNode_of_indexAccess Dialect.kind?_node]
      cases dialect <;> simp [Dialect.indexedField, Dialect.indexField, baseRead]
  | indexAccess base (some index), normal => by
      rw [isNormal, Bool.and_eq_true] at normal
      have baseRead := ofNode_toNode dialect base normal.1
      have indexRead := ofNode_toNode dialect index normal.2
      rw [toNode, ofNode_of_indexAccess Dialect.kind?_node]
      cases dialect <;> simp [Dialect.indexedField, Dialect.indexField, baseRead, indexRead]
  | memberAccess object member, normal => by
      have objectRead := ofNode_toNode dialect object normal
      rw [toNode, ofNode_of_memberAccess Dialect.kind?_node _ _, objectRead]
      all_goals cases dialect <;> simp
  | identifier name, _ => by
      rw [toNode, ofNode]
      cases dialect <;> simp [Dialect.assignmentKind]
  | literal text, _ => by
      rw [toNode, ofNode]
      cases dialect <;> simp [Dialect.literal, literalText?, constantText?, Json.scalarText?,
        Dialect.assignmentKind]
  | other kind, _ => by
      by_cases isAccess : kind = "IndexAccess"
      · rw [isAccess, toNode, ofNode_of_indexAccess Dialect.kind?_node]
        cases dialect <;> simp [Dialect.indexedField]
      · rw [toNode, ofNode]
        cases dialect <;> simp [isAccess, literalText?, Dialect.assignmentKind]

end Expr

/-! ## Statements -/

mutual

/-- The node of a statement. -/
def Stmt.toNode (dialect : Dialect) : Stmt → Json
  | .expression expr =>
      dialect.node "ExpressionStatement" [("expression", expr.toNode dialect)]
  | .conditional thenBlock none =>
      dialect.node "IfStatement"
        [(dialect.thenField, dialect.block (Block.toNodes dialect thenBlock)),
          (dialect.elseField, .null)]
  | .conditional thenBlock (some elseBlock) =>
      dialect.node "IfStatement"
        [(dialect.thenField, dialect.block (Block.toNodes dialect thenBlock)),
          (dialect.elseField, dialect.block (Block.toNodes dialect elseBlock))]
  | .forLoop body =>
      dialect.node "ForStatement" [("body", dialect.block (Block.toNodes dialect body))]
  | .other kind => dialect.node kind []

/-- The nodes of the statements of a block. -/
def Block.toNodes (dialect : Dialect) : Block → List Json
  | [] => []
  | statement :: rest => statement.toNode dialect :: Block.toNodes dialect rest

end

mutual

/-- Whether the expressions are normal, and no statement of another kind has the tag
of a conditional or a loop. -/
def Stmt.isNormal : Stmt → Bool
  | .expression expr => expr.isNormal
  | .conditional thenBlock none => Block.isNormal thenBlock
  | .conditional thenBlock (some elseBlock) => Block.isNormal thenBlock && Block.isNormal elseBlock
  | .forLoop body => Block.isNormal body
  | .other kind => kind ∉ ["IfStatement", "ForStatement"]

/-- Whether all statements of a block are normal. -/
def Block.isNormal : Block → Bool
  | [] => true
  | statement :: rest => statement.isNormal && Block.isNormal rest

end

section Reading

variable {dialect : Dialect} {node : Json}

theorem Stmt.ofNode?_of_conditional (kind : dialect.kind? node = some "IfStatement") :
    Stmt.ofNode? dialect node =
      some (.conditional (((node.child? dialect.thenField).map (Block.ofNode dialect)).getD [])
        ((node.child? dialect.elseField).map (Block.ofNode dialect))) := by
  rw [Stmt.ofNode?, kind]
  dsimp only
  rw [if_neg (by decide), if_pos rfl]
  split <;> split <;> simp_all

theorem Stmt.ofNode?_of_forLoop (kind : dialect.kind? node = some "ForStatement") :
    Stmt.ofNode? dialect node =
      some (.forLoop (((node.child? "body").map (Block.ofNode dialect)).getD [])) := by
  rw [Stmt.ofNode?, kind]
  dsimp only
  rw [if_neg (by decide), if_neg (by decide), if_pos rfl]
  split <;> simp_all

theorem Block.ofNode_block (dialect : Dialect) (statements : List Json) :
    Block.ofNode dialect (dialect.block statements) =
      statements.filterMap (Stmt.ofNode? dialect) := by
  rw [Block.ofNode_eq, Dialect.block, Dialect.kind?_node]
  cases dialect <;> simp

end Reading

mutual

/-- A written statement is read as it was. -/
theorem Stmt.ofNode?_toNode (dialect : Dialect) :
    (statement : Stmt) → statement.isNormal = true →
      Stmt.ofNode? dialect (statement.toNode dialect) = some statement
  | .expression expr, normal => by
      have exprRead := Expr.ofNode_toNode dialect expr normal
      rw [Stmt.toNode, Stmt.ofNode?]
      cases dialect <;> simp [exprRead]
  | .conditional thenBlock none, normal => by
      have thenRead := Block.ofNode_toNodes dialect thenBlock normal
      rw [Stmt.toNode, Stmt.ofNode?_of_conditional Dialect.kind?_node]
      cases dialect <;> simp [Dialect.thenField, Dialect.elseField, thenRead]
  | .conditional thenBlock (some elseBlock), normal => by
      rw [Stmt.isNormal, Bool.and_eq_true] at normal
      have thenRead := Block.ofNode_toNodes dialect thenBlock normal.1
      have elseRead := Block.ofNode_toNodes dialect elseBlock normal.2
      rw [Stmt.toNode, Stmt.ofNode?_of_conditional Dialect.kind?_node]
      cases dialect <;> simp [Dialect.thenField, Dialect.elseField, thenRead, elseRead]
  | .forLoop body, normal => by
      have bodyRead := Block.ofNode_toNodes dialect body normal
      rw [Stmt.toNode, Stmt.ofNode?_of_forLoop Dialect.kind?_node]
      cases dialect <;> simp [bodyRead]
  | .other kind, normal => by
      have foreign : kind ≠ "IfStatement" ∧ kind ≠ "ForStatement" := by
        simpa [Stmt.isNormal] using normal
      rw [Stmt.toNode, Stmt.ofNode?]
      cases dialect <;> simp [foreign]

/-- The block of written statements is read as it was. -/
theorem Block.ofNode_toNodes (dialect : Dialect) :
    (block : Block) → Block.isNormal block = true →
      Block.ofNode dialect (dialect.block (Block.toNodes dialect block)) = block
  | [], _ => by rw [Block.toNodes, Block.ofNode_block, List.filterMap_nil]
  | statement :: rest, normal => by
      rw [Block.isNormal, Bool.and_eq_true] at normal
      have restRead := Block.ofNode_toNodes dialect rest normal.2
      rw [Block.ofNode_block] at restRead
      rw [Block.toNodes, Block.ofNode_block, List.filterMap_cons,
        Stmt.ofNode?_toNode dialect statement normal.1, restRead]

end

end SolidityModel
