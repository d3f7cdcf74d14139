import SolidityModel.Syntax.SourceUnit
import SolidityModel.Tree.Declaration

/-!
# Reading source units
-/

namespace SolidityModel

/-- The name and the value of a pragma node.  The compact dialect gives the pragma
as a list of words, of which the first is the name. -/
def pragmaOfNode (dialect : Dialect) (node : Json) : String × String :=
  match dialect with
  | .legacy => ((node.textField? "name").getD "", (node.textField? "value").getD "")
  | .compact =>
      match (node.items "literals").filterMap Json.text? with
      | [] => ("", "")
      | name :: words => (name, String.join words)

namespace UnitItem

/-- What a node at the top level declares. -/
def ofNode? (dialect : Dialect) (node : Json) : Option UnitItem :=
  match dialect.kind? node with
  | none => none
  | some kind =>
      if kind = "PragmaDirective" then
        some (.pragma (pragmaOfNode dialect node).1 (pragmaOfNode dialect node).2)
      else if kind = "ContractDefinition" then
        (ContractDef.ofNode? dialect node).map .contract
      else if kind = "StructDefinition" then
        (StructDef.ofNode? dialect node).map .structDef
      else if kind = "EnumDefinition" then (EnumDef.ofNode? node).map .enumDef
      else some (.other kind)

end UnitItem

namespace SourceUnit

/-- The unit of a list of nodes, each read in its own dialect. -/
def ofNodes (nodes : List Json) : SourceUnit where
  items := nodes.filterMap fun node =>
    (Dialect.detect? node).bind fun dialect => UnitItem.ofNode? dialect node

/-- The list of the top-level nodes in a tree: the tree itself if it is an array,
or a field of the unit.  A unit may be wrapped in the field `ast` of a compiler's
output. -/
def nodes? (tree : Json) : Option (List Json) :=
  match tree with
  | .array nodes => some nodes
  | tree =>
      match _ : tree.field? "ast" with
      | some (.object fields) => nodes? (.object fields)
      | _ => ((tree.field? "children").or (tree.field? "nodes")).bind Json.items?
termination_by sizeOf tree
decreasing_by exact Json.sizeOf_lt_of_field? ‹_›

end SourceUnit

end SolidityModel
