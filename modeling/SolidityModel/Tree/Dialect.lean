import SolidityModel.Json

/-!
# The two dialects of syntax trees

A Solidity syntax tree arrives as JSON in one of two dialects, which tag their
nodes and name their fields differently.  Every node tells its own dialect, so
one unit may hold nodes of both.
-/

namespace SolidityModel

/-- A way of writing syntax trees as JSON. -/
inductive Dialect where
  /-- Nodes are tagged with `type`, and contracts hold `subNodes`. -/
  | legacy
  /-- Nodes are tagged with `nodeType`, and contracts hold `nodes`. -/
  | compact
  deriving DecidableEq, Inhabited

namespace Dialect

/-- The name of the dialect. -/
def name : Dialect → String
  | legacy => "legacy"
  | compact => "compact"

/-- The field with the kind of a node. -/
def kindField : Dialect → String
  | legacy => "type"
  | compact => "nodeType"

/-- The field with the element type of an array type. -/
def elementField : Dialect → String
  | legacy => "baseTypeName"
  | compact => "baseType"

/-- The kind of the expressions that may be assignments. -/
def assignmentKind : Dialect → String
  | legacy => "BinaryOperation"
  | compact => "Assignment"

/-- The field with the assigned-to expression. -/
def targetField : Dialect → String
  | legacy => "left"
  | compact => "leftHandSide"

/-- The field with the indexed expression. -/
def indexedField : Dialect → String
  | legacy => "base"
  | compact => "baseExpression"

/-- The field with the expression between brackets. -/
def indexField : Dialect → String
  | legacy => "index"
  | compact => "indexExpression"

/-- The field with the branch that runs when a condition holds. -/
def thenField : Dialect → String
  | legacy => "TrueBody"
  | compact => "trueBody"

/-- The field with the branch that runs when a condition fails. -/
def elseField : Dialect → String
  | legacy => "FalseBody"
  | compact => "falseBody"

/-- The field with the declarations of a contract. -/
def membersField : Dialect → String
  | legacy => "subNodes"
  | compact => "nodes"

/-- The kind of a node. -/
def kind? (dialect : Dialect) (node : Json) : Option String :=
  node.textField? dialect.kindField

/-- The dialect of a node, by its tag.  Values without a tag are no nodes. -/
def detect? (node : Json) : Option Dialect :=
  if (compact.kind? node).isSome then some compact
  else if (legacy.kind? node).isSome then some legacy
  else none

end Dialect

end SolidityModel
