import Mathlib.Logic.Relation
import SolidityModel.Inheritance.Tree
import SolidityModel.Proofs.Inheritance.Merge

/-!
# Orders of contracts

The rule of linearization as a derivation: a contract has an order where its
bases have orders and these merge with its base list.  A derivation is finite, so
that nothing with an order inherits from itself
(`InheritanceTree.HasOrder.not_inherits_self`).  All that an order promises about
ancestors follows from the derivation alone, without a look at how the order is
computed.
-/

namespace SolidityModel

namespace InheritanceTree

/-! ## Ancestry -/

/-- A contract names another one among its bases. -/
def Extends (tree : InheritanceTree) (contract base : String) : Prop :=
  base ∈ tree.basesOf contract

/-- One or more steps to a base lead from a contract to another one. -/
abbrev Inherits (tree : InheritanceTree) : String → String → Prop :=
  Relation.TransGen tree.Extends

/-- Steps to a base lead from a contract to another one, or it is that one. -/
abbrev Reaches (tree : InheritanceTree) : String → String → Prop :=
  Relation.ReflTransGen tree.Extends

variable {tree : InheritanceTree} {contract ancestor : String} {order : List String}

theorem inherits_iff :
    tree.Inherits contract ancestor ↔
      ∃ base ∈ tree.basesOf contract, tree.Reaches base ancestor :=
  Relation.TransGen.head'_iff

theorem reaches_iff_eq_or_inherits :
    tree.Reaches contract ancestor ↔ ancestor = contract ∨ tree.Inherits contract ancestor :=
  Relation.reflTransGen_iff_eq_or_transGen

/-! ## Derivations of orders -/

/-- The order that the rule of linearization gives to a contract.  A base that is
written twice has one order. -/
inductive HasOrder (tree : InheritanceTree) : String → List String → Prop where
  | intro {contract : String} {ancestors : List String} (orderOf : String → List String)
      (bases : ∀ base ∈ tree.basesOf contract, HasOrder tree base (orderOf base))
      (merged : merge ((tree.basesOf contract).map orderOf ++ [tree.basesOf contract]) =
        .ok ancestors) :
      HasOrder tree contract (contract :: ancestors)

/-- Merged orders of the bases hold what the contract inherits from. -/
theorem mem_merged_iff {ancestors : List String} {orderOf : String → List String}
    (merged : merge ((tree.basesOf contract).map orderOf ++ [tree.basesOf contract]) =
      .ok ancestors)
    (mem_orderOf : ∀ base ∈ tree.basesOf contract, ∀ name,
      name ∈ orderOf base ↔ tree.Reaches base name)
    (name : String) : name ∈ ancestors ↔ tree.Inherits contract name := by
  rw [mem_merge_iff merged, inherits_iff]
  constructor
  · rintro ⟨sequence, member, inSequence⟩
    rcases List.mem_append.mp member with fromBase | baseList
    · rcases List.mem_map.mp fromBase with ⟨base, isBase, rfl⟩
      exact ⟨base, isBase, (mem_orderOf base isBase name).mp inSequence⟩
    · rw [List.mem_singleton.mp baseList] at inSequence
      exact ⟨name, inSequence, .refl⟩
  · rintro ⟨base, isBase, reaches⟩
    exact ⟨orderOf base, List.mem_append_left _ (List.mem_map_of_mem isBase),
      (mem_orderOf base isBase name).mpr reaches⟩

namespace HasOrder

variable {ancestors : List String}

/-- A contract with an order is no ancestor of its own: a cycle through it would
also be one through its base. -/
theorem not_inherits_self (derived : tree.HasOrder contract order) :
    ¬tree.Inherits contract contract := by
  induction derived with
  | intro orderOf bases merged ih =>
      intro cycle
      rcases inherits_iff.mp cycle with ⟨base, member, back⟩
      exact ih base member (Relation.TransGen.tail' back member)

/-- An order lists the contract and its ancestors. -/
theorem mem_iff (derived : tree.HasOrder contract order) (name : String) :
    name ∈ order ↔ tree.Reaches contract name := by
  induction derived generalizing name with
  | intro orderOf bases merged ih =>
      rw [List.mem_cons, mem_merged_iff merged ih, reaches_iff_eq_or_inherits]

/-- Behind the contract stand the names that it inherits from. -/
theorem mem_ancestors_iff (derived : tree.HasOrder contract (contract :: ancestors))
    (name : String) : name ∈ ancestors ↔ tree.Inherits contract name := by
  cases derived with
  | intro orderOf bases merged =>
      exact mem_merged_iff merged (fun base member => (bases base member).mem_iff) name

/-- An order begins with its contract. -/
theorem exists_eq_cons (derived : tree.HasOrder contract order) :
    ∃ ancestors, order = contract :: ancestors := by
  cases derived with
  | @intro _ ancestors => exact ⟨ancestors, rfl⟩

theorem nodup_ancestors (derived : tree.HasOrder contract (contract :: ancestors)) :
    ancestors.Nodup := by
  cases derived with
  | intro orderOf bases merged => exact (commonOrder_of_merge merged).nodup

/-- The base list of a contract is a part of its order. -/
theorem basesOf_sublist (derived : tree.HasOrder contract (contract :: ancestors)) :
    (tree.basesOf contract).Sublist ancestors := by
  cases derived with
  | intro orderOf bases merged =>
      exact (commonOrder_of_merge merged).contains _ (List.mem_append_right _ (by simp))

/-- Whatever a contract reaches has an order, and this is a part of the order of
the contract. -/
theorem exists_sublist (derived : tree.HasOrder contract order)
    (reaches : tree.Reaches contract ancestor) :
    ∃ inner, tree.HasOrder ancestor inner ∧ inner.Sublist order := by
  induction derived with
  | @intro contract ancestors orderOf bases merged ih =>
      rcases reaches_iff_eq_or_inherits.mp reaches with rfl | inherits
      · exact ⟨_, .intro orderOf bases merged, .refl _⟩
      · rcases inherits_iff.mp inherits with ⟨base, isBase, fromBase⟩
        rcases ih base isBase fromBase with ⟨inner, innerDerived, inBase⟩
        have baseKept : (orderOf base).Sublist ancestors :=
          (commonOrder_of_merge merged).contains _
            (List.mem_append_left _ (List.mem_map_of_mem isBase))
        exact ⟨inner, innerDerived, inBase.trans (baseKept.cons contract)⟩

theorem nodup (derived : tree.HasOrder contract order) : order.Nodup := by
  rcases derived.exists_eq_cons with ⟨ancestors, rfl⟩
  apply List.nodup_cons.mpr
  constructor
  · intro member
    exact derived.not_inherits_self ((derived.mem_ancestors_iff contract).mp member)
  · exact derived.nodup_ancestors

/-- An order respects the base lists of all contracts in it. -/
theorem commonOrder_basesOf (derived : tree.HasOrder contract order) :
    CommonOrder (order.map fun name => name :: tree.basesOf name) order := by
  constructor
  · exact derived.nodup
  · intro sequence member
    rcases List.mem_map.mp member with ⟨name, inOrder, rfl⟩
    rcases derived.exists_sublist ((derived.mem_iff name).mp inOrder) with
      ⟨inner, innerDerived, kept⟩
    rcases innerDerived.exists_eq_cons with ⟨further, rfl⟩
    exact (innerDerived.basesOf_sublist.cons_cons name).trans kept

/-- The order of every ancestor is a part of the ancestors. -/
theorem exists_sublist_ancestors (derived : tree.HasOrder contract (contract :: ancestors))
    (member : ancestor ∈ ancestors) :
    ∃ further, tree.HasOrder ancestor (ancestor :: further) ∧
      (ancestor :: further).Sublist ancestors := by
  have inherits : tree.Inherits contract ancestor := (derived.mem_ancestors_iff ancestor).mp member
  rcases derived.exists_sublist inherits.to_reflTransGen with ⟨inner, innerDerived, kept⟩
  rcases innerDerived.exists_eq_cons with ⟨further, rfl⟩
  refine ⟨further, innerDerived, ?_⟩
  cases kept with
  | cons _ kept => exact kept
  | cons_cons _ _ => exact absurd inherits innerDerived.not_inherits_self

end HasOrder

end InheritanceTree

end SolidityModel
