import SolidityModel.Contract.Detail
import SolidityModel.Syntax.Stmt

/-!
# Writes to mappings

A write to a mapping is an assignment to a chain of index accesses over the name
of a visible mapping.  Assignments are looked for in expression statements, in
both branches of conditionals and in the bodies of counting loops, and nowhere
else.
-/

namespace SolidityModel

/-- A write whose keys can all be told. -/
structure MappingWrite where
  /-- The contract with the writing function. -/
  contract : String
  /-- The writing function or modifier. -/
  function : String
  mapping : String
  /-- The function and then the keys, from the one written first to the one written
  last. -/
  keyPath : List String
  deriving DecidableEq, Inhabited

/-- What is found out about one function or modifier. -/
structure CallableWrites where
  /-- Whether it writes to a visible mapping at all. -/
  writesMapping : Bool
  /-- Those of its writes whose keys can be told. -/
  records : List MappingWrite
  deriving DecidableEq, Inhabited

namespace CallableWrites

/-- No writes. -/
def empty : CallableWrites := ⟨false, []⟩

/-- The writes of one part and then those of another. -/
def append (first second : CallableWrites) : CallableWrites :=
  ⟨first.writesMapping || second.writesMapping, first.records ++ second.records⟩

instance : Append CallableWrites := ⟨append⟩

end CallableWrites

/-- Where writes are looked for: in which function of which contract, and to which
mappings. -/
structure WriteSearch where
  contract : String
  mappings : NameSet
  function : String

namespace WriteSearch

/-- The record of a write to a mapping under given indices, if all of them are
there and can be told. -/
def record? (search : WriteSearch) (mapping : String) (indices : List (Option Expr)) :
    Option MappingWrite :=
  (indices.mapM fun (index : Option Expr) => index.bind Expr.key?).map fun keys =>
    { contract := search.contract, function := search.function, mapping
      keyPath := search.function :: keys }

/-- The write that an assignment to a target makes. -/
def inTarget (search : WriteSearch) (target : Expr) : CallableWrites :=
  match target.indexChain with
  | (.identifier root, index :: indices) =>
      if root ∈ search.mappings then ⟨true, (search.record? root (index :: indices)).toList⟩
      else CallableWrites.empty
  | _ => CallableWrites.empty

/-- The write that an expression statement makes. -/
def inExpr (search : WriteSearch) : Expr → CallableWrites
  | .assignment _ target => search.inTarget target
  | _ => CallableWrites.empty

mutual

/-- The writes in a statement. -/
def inStmt (search : WriteSearch) : Stmt → CallableWrites
  | .expression expr => search.inExpr expr
  | .conditional thenBlock none => search.inBlock thenBlock
  | .conditional thenBlock (some elseBlock) =>
      search.inBlock thenBlock ++ search.inBlock elseBlock
  | .forLoop body => search.inBlock body
  | .other _ => CallableWrites.empty

/-- The writes in a block. -/
def inBlock (search : WriteSearch) : List Stmt → CallableWrites
  | [] => CallableWrites.empty
  | statement :: rest => search.inStmt statement ++ search.inBlock rest

end

end WriteSearch

/-- The writes of a function or modifier of a contract that sees the given
mappings. -/
def Callable.writes (definition : Callable) (contract : String) (mappings : NameSet) :
    CallableWrites :=
  WriteSearch.inBlock ⟨contract, mappings, definition.name⟩ (definition.body?.getD [])

end SolidityModel
