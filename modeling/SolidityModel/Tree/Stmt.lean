import SolidityModel.Syntax.Stmt
import SolidityModel.Tree.Expr

/-!
# Reading statements

Values without a kind, which the legacy dialect leaves in statement lists, are no
statements and are skipped.
-/

namespace SolidityModel

mutual

/-- The statement of a node. -/
def Stmt.ofNode? (dialect : Dialect) (node : Json) : Option Stmt :=
  match dialect.kind? node with
  | none => none
  | some kind =>
      if kind = "ExpressionStatement" then
        match node.child? "expression" with
        | some expr => some (.expression (Expr.ofNode dialect expr))
        | none => some (.other kind)
      else if kind = "IfStatement" then
        let thenBlock := match _ : node.child? dialect.thenField with
          | some branch => Block.ofNode dialect branch
          | none => []
        match _ : node.child? dialect.elseField with
        | some branch => some (.conditional thenBlock (some (Block.ofNode dialect branch)))
        | none => some (.conditional thenBlock none)
      else if kind = "ForStatement" then
        match _ : node.child? "body" with
        | some body => some (.forLoop (Block.ofNode dialect body))
        | none => some (.forLoop [])
      else some (.other kind)
termination_by (sizeOf node, 0)
decreasing_by
  all_goals exact Prod.Lex.left _ _ (Json.sizeOf_lt_of_child? ‹_›)

/-- The statements of a block.  A statement that stands where a block may stand
is the only one of its block. -/
def Block.ofNode (dialect : Dialect) (node : Json) : Block :=
  match dialect.kind? node with
  | none => []
  | some kind =>
      if kind = "Block" ∨ kind = "UncheckedBlock" then
        (node.items "statements").attach.filterMap fun ⟨statement, member⟩ =>
          have : sizeOf statement < sizeOf node := Json.sizeOf_lt_of_mem_items member
          Stmt.ofNode? dialect statement
      else (Stmt.ofNode? dialect node).toList
termination_by (sizeOf node, 1)
decreasing_by
  · exact Prod.Lex.left _ _ this
  · exact Prod.Lex.right _ Nat.zero_lt_one

end

/-- The statements of a block node are those of the entries of its list. -/
theorem Block.ofNode_eq (dialect : Dialect) (node : Json) :
    Block.ofNode dialect node =
      match dialect.kind? node with
      | none => []
      | some kind =>
          if kind = "Block" ∨ kind = "UncheckedBlock" then
            (node.items "statements").filterMap (Stmt.ofNode? dialect)
          else (Stmt.ofNode? dialect node).toList := by
  rw [Block.ofNode]
  split
  · rfl
  · split
    · simp
    · rfl

end SolidityModel
