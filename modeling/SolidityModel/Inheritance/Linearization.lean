import SolidityModel.Inheritance.Merge
import SolidityModel.Inheritance.Tree

/-!
# Linearization of ancestors

The order of a contract puts the contract in front of the merge of the orders of
its bases and of its base list.  Orders that are complete are remembered, and
they stay so when a contract that needed them fails in the end.
-/

namespace SolidityModel

/-- The orders found so far, each beginning with its contract. -/
abbrev OrderMemo := NameMap (List String)

/-- Visit names from left to right up to the first failure, which leaves behind
the memo of the visits before it. -/
def visitAll (visit : String → OrderMemo → Except InheritanceError (List String) × OrderMemo) :
    List String → OrderMemo → Except InheritanceError (List (List String)) × OrderMemo
  | [], memo => (.ok [], memo)
  | name :: rest, memo =>
      match visit name memo with
      | (.error error, memo) => (.error error, memo)
      | (.ok order, memo) =>
          match visitAll visit rest memo with
          | (.error error, memo) => (.error error, memo)
          | (.ok orders, memo) => (.ok (order :: orders), memo)

/-- The ancestors of the contracts of a tree, nearest first and without the
contract itself. -/
structure Linearization where
  /-- The ancestors of the contracts whose hierarchy has an order. -/
  orders : NameMap (List String)
  /-- Why the other contracts have none. -/
  failures : NameMap InheritanceError
  deriving DecidableEq, Inhabited

namespace Linearization

/-- The linearization of no contracts. -/
def empty : Linearization := ⟨NameMap.empty, NameMap.empty⟩

/-- The ancestors of a contract.  A contract without an entry has no bases, and so
no ancestors. -/
def ancestorsOf (linearization : Linearization) (contract : String) :
    Except InheritanceError (List String) :=
  match linearization.failures.get? contract with
  | some error => .error error
  | none => .ok ((linearization.orders.get? contract).getD [])

/-- Enter the outcome for a contract. -/
def record (linearization : Linearization) (contract : String) :
    Except InheritanceError (List String) → Linearization
  | .ok order =>
      { linearization with orders := linearization.orders.insert contract order.tail }
  | .error error =>
      { linearization with failures := linearization.failures.insert contract error }

end Linearization

namespace InheritanceTree

/-- The order of a contract that a walk reaches on an active path. -/
def orderFrom (tree : InheritanceTree) (active : List String) (contract : String)
    (memo : OrderMemo) : Except InheritanceError (List String) × OrderMemo :=
  match memo.get? contract with
  | some order => (.ok order, memo)
  | none =>
      if _ : contract ∈ active then
        (.error (.cyclic contract (loopThrough contract active)), memo)
      else if _ : tree.basesOf contract ≠ [] then
        match visitAll (fun base memo => orderFrom tree (active ++ [contract]) base memo)
            (tree.basesOf contract) memo with
        | (.error error, memo) => (.error error, memo)
        | (.ok orders, memo) =>
            match merge (orders ++ [tree.basesOf contract]) with
            | .error remaining => (.error (.inconsistent contract remaining), memo)
            | .ok ancestors =>
                (.ok (contract :: ancestors), memo.insert contract (contract :: ancestors))
      else (.ok [contract], memo.insert contract [contract])
termination_by tree.offPath active
decreasing_by exact offPath_lt ‹_› ‹_›

/-- The ancestors of one contract, nearest first and without the contract
itself. -/
def ancestorsOf (tree : InheritanceTree) (contract : String) :
    Except InheritanceError (List String) :=
  (tree.orderFrom [] contract NameMap.empty).1.map List.tail

/-- The linearization of the contracts of a list, which share one memo. -/
def linearizeAll (tree : InheritanceTree) (contracts : List String) :
    Linearization × OrderMemo :=
  contracts.foldl (fun (linearization, memo) contract =>
    let (outcome, memo) := tree.orderFrom [] contract memo
    (linearization.record contract outcome, memo)) (Linearization.empty, NameMap.empty)

/-- The linearization of every contract with an entry, in ascending order. -/
def linearize (tree : InheritanceTree) : Linearization :=
  (tree.linearizeAll tree.contracts).1

end InheritanceTree

end SolidityModel
