import SolidityModel.Proofs.Inheritance.Memo

/-!
# What a linearization promises

Three results about the ancestors of a contract: the order in which they are
listed, when there is one at all, and that it is the same whether it is looked up
in the table of a whole tree, computed by itself, or computed without a memo.
-/

namespace SolidityModel

namespace InheritanceTree

variable {tree : InheritanceTree} {contract : String} {ancestors : List String}

/-! ## The order of ancestors -/

/-- A list of the ancestors of a contract that respects the base lists of all
contracts above it. -/
structure Linearizes (tree : InheritanceTree) (contract : String)
    (ancestors : List String) : Prop where
  nodup : ancestors.Nodup
  not_mem_self : contract ∉ ancestors
  mem_iff : ∀ name, name ∈ ancestors ↔ tree.Inherits contract name
  /-- Local precedence. -/
  bases : (tree.basesOf contract).Sublist ancestors
  /-- Monotonicity, for every ancestor. -/
  monotone : ∀ ancestor ∈ ancestors, ∃ further, tree.ancestorsOf ancestor = .ok further ∧
    (ancestor :: further).Sublist ancestors

/-- The ancestors that are found for a contract linearize it. -/
theorem linearizes_of_ancestorsOf (found : tree.ancestorsOf contract = .ok ancestors) :
    tree.Linearizes contract ancestors := by
  have derived := ancestorsOf_eq_ok_iff.mp found
  refine ⟨derived.nodup_ancestors, ?_, derived.mem_ancestors_iff, derived.basesOf_sublist, ?_⟩
  · intro member
    exact derived.not_inherits_self ((derived.mem_ancestors_iff contract).mp member)
  · intro ancestor member
    rcases derived.exists_sublist_ancestors member with ⟨further, furtherDerived, kept⟩
    exact ⟨further, ancestorsOf_eq_ok_iff.mpr furtherDerived, kept⟩

/-- A diamond whose top has a base that is defined nowhere. -/
def diamondTree : InheritanceTree where
  declared := NameMap.ofList
    [("Top", ["Lost"]), ("Left", ["Top"]), ("Right", ["Top"]), ("Bottom", ["Left", "Right"])]

theorem linearizes_diamondTree :
    diamondTree.ancestorsOf "Bottom" = .ok ["Left", "Right", "Top", "Lost"] ∧
      diamondTree.Linearizes "Bottom" ["Left", "Right", "Top", "Lost"] :=
  ⟨by decide +kernel, linearizes_of_ancestorsOf (by decide +kernel)⟩

/-! ## Ancestors of ancestors -/

/-- An ancestor has an order of its own, which is a part of the ancestors of the
contract. -/
theorem exists_ancestorsOf_of_mem (found : tree.ancestorsOf contract = .ok ancestors)
    {ancestor : String} (member : ancestor ∈ ancestors) :
    ∃ further, tree.ancestorsOf ancestor = .ok further ∧
      (ancestor :: further).Sublist ancestors := by
  rcases (ancestorsOf_eq_ok_iff.mp found).exists_sublist_ancestors member with
    ⟨further, derived, kept⟩
  exact ⟨further, ancestorsOf_eq_ok_iff.mpr derived, kept⟩

/-- What holds of a contract once it holds of all its ancestors holds everywhere,
because an ancestor has fewer ancestors.  A contract without an order has none. -/
theorem ancestors_induction (tree : InheritanceTree) {motive : String → Prop}
    (step : ∀ contract, (∀ ancestors, tree.ancestorsOf contract = .ok ancestors →
      ∀ ancestor ∈ ancestors, motive ancestor) → motive contract)
    (contract : String) : motive contract := by
  apply step
  intro ancestors found ancestor member
  rcases exists_ancestorsOf_of_mem found member with ⟨further, furtherFound, kept⟩
  have fewer : further.length < ancestors.length := kept.length_le
  exact ancestors_induction tree step ancestor
termination_by ((tree.ancestorsOf contract).toOption.getD []).length
decreasing_by
  rw [found, furtherFound]
  exact fewer

/-! ## Where there is no order -/

/-- The bases of a contract have orders, but nothing respects all of these and the
base list. -/
def Inconsistent (tree : InheritanceTree) (contract : String) : Prop :=
  ∃ ancestorsOfBase : String → List String,
    (∀ base ∈ tree.basesOf contract, tree.ancestorsOf base = .ok (ancestorsOfBase base)) ∧
    ¬∃ order, CommonOrder
      ((tree.basesOf contract).map (fun base => base :: ancestorsOfBase base) ++
        [tree.basesOf contract]) order

/-- A hierarchy is rejected at a contract that is inconsistent. -/
theorem inconsistent_of_ancestorsOf {failing : String} {remaining : List (List String)}
    (failed : tree.ancestorsOf contract = .error (.inconsistent failing remaining)) :
    tree.Reaches contract failing ∧ tree.Inconsistent failing := by
  rw [ancestorsOf_eq_orderOnPath] at failed
  cases walked : tree.orderOnPath [] contract with
  | ok order => rw [walked] at failed; cases failed
  | error error =>
      rw [walked] at failed
      cases failed
      rcases merge_error_of_orderOnPath walked with ⟨reaches, orderOf, derived, stuck⟩
      have orderEq : ∀ base ∈ tree.basesOf failing,
          orderOf base = base :: (orderOf base).tail := by
        intro base isBase
        rcases (derived base isBase).exists_eq_cons with ⟨others, equal⟩
        rw [equal, List.tail_cons]
      refine ⟨reaches, fun base => (orderOf base).tail, ?_, ?_⟩
      · intro base isBase
        exact ancestorsOf_eq_ok_iff.mpr (orderEq base isBase ▸ derived base isBase)
      · rw [← List.map_congr_left orderEq]
        rintro ⟨order, common⟩
        rcases exists_merge_eq_ok common with ⟨names, merged⟩
        rw [merged] at stuck
        cases stuck

/-- An inconsistent contract is rejected. -/
theorem ancestorsOf_of_inconsistent (inconsistent : tree.Inconsistent contract) :
    ∃ remaining, tree.ancestorsOf contract = .error (.inconsistent contract remaining) := by
  rcases inconsistent with ⟨ancestorsOfBase, found, noOrder⟩
  have walked : (tree.basesOf contract).mapM (tree.orderOnPath [contract]) =
      .ok ((tree.basesOf contract).map fun base => base :: ancestorsOfBase base) := by
    refine mapM_eq_ok_iff.mpr ⟨_, ?_, rfl⟩
    intro base isBase
    have derived := ancestorsOf_eq_ok_iff.mp (found base isBase)
    apply orderOnPath_of_hasOrder derived
    intro name member reaches
    rw [List.mem_singleton.mp member] at reaches
    exact derived.not_inherits_self (Relation.TransGen.tail' reaches isBase)
  cases merged : merge ((tree.basesOf contract).map (fun base => base :: ancestorsOfBase base) ++
      [tree.basesOf contract]) with
  | ok names => exact absurd ⟨names, commonOrder_of_merge merged⟩ noOrder
  | error remaining =>
      refine ⟨remaining, ?_⟩
      rw [ancestorsOf_eq_orderOnPath, orderOnPath_of_not_mem List.not_mem_nil, List.nil_append,
        walked]
      simp only [Except.bind, merged, Except.map]

/-- A merge finds a common order of its sequences if there is one, and otherwise
leaves what shows that there is none.  So a hierarchy is rejected for its order
exactly where nothing respects the orders of the bases and the base list, and an
order that is given respects all base lists. -/
theorem merge_decides_commonOrder :
    (∀ sequences : List (List String),
      ((∃ names, merge sequences = .ok names) ↔ ∃ order, CommonOrder sequences order) ∧
      (∀ names, merge sequences = .ok names → CommonOrder sequences names ∧
        ∀ name, name ∈ names ↔ ∃ sequence ∈ sequences, name ∈ sequence) ∧
      (∀ remaining, merge sequences = .error remaining → Stuck sequences remaining)) ∧
    ∀ (tree : InheritanceTree) (contract : String),
      (∀ failing remaining,
        tree.ancestorsOf contract = .error (.inconsistent failing remaining) →
          tree.Reaches contract failing ∧ tree.Inconsistent failing) ∧
      (tree.Inconsistent contract →
        ∃ remaining, tree.ancestorsOf contract = .error (.inconsistent contract remaining)) ∧
      (∀ ancestors, tree.ancestorsOf contract = .ok ancestors →
        CommonOrder ((contract :: ancestors).map fun name => name :: tree.basesOf name)
          (contract :: ancestors)) := by
  constructor
  · intro sequences
    refine ⟨⟨?_, ?_⟩, ?_, ?_⟩
    · rintro ⟨names, merged⟩
      exact ⟨names, commonOrder_of_merge merged⟩
    · rintro ⟨order, common⟩
      exact exists_merge_eq_ok common
    · intro names merged
      exact ⟨commonOrder_of_merge merged, mem_merge_iff merged⟩
    · intro remaining failed
      exact stuck_of_merge failed
  · intro tree contract
    refine ⟨?_, ancestorsOf_of_inconsistent, ?_⟩
    · intro failing remaining failed
      exact inconsistent_of_ancestorsOf failed
    · intro ancestors found
      exact (ancestorsOf_eq_ok_iff.mp found).commonOrder_basesOf

/-- Two bases that list a third and a fourth contract in opposite orders. -/
def crossedTree : InheritanceTree where
  declared := NameMap.ofList
    [("Near", ["First", "Second"]), ("Far", ["Second", "First"]), ("Crossed", ["Near", "Far"])]

theorem crossedTree_rejected :
    (merge [["First", "Second"], ["Second"]] = .ok ["First", "Second"] ∧
      CommonOrder [["First", "Second"], ["Second"]] ["First", "Second"]) ∧
    (merge [["First", "Second"], ["Second", "First"]] =
        .error [["First", "Second"], ["Second", "First"]] ∧
      Stuck [["First", "Second"], ["Second", "First"]]
        [["First", "Second"], ["Second", "First"]]) ∧
    crossedTree.ancestorsOf "Crossed" =
      .error (.inconsistent "Crossed" [["First", "Second"], ["Second", "First"]]) ∧
    crossedTree.Inconsistent "Crossed" := by
  have merged : merge [["First", "Second"], ["Second"]] = .ok ["First", "Second"] := by
    decide +kernel
  have stuck : merge [["First", "Second"], ["Second", "First"]] =
      .error [["First", "Second"], ["Second", "First"]] := by decide +kernel
  have rejected : crossedTree.ancestorsOf "Crossed" =
      .error (.inconsistent "Crossed" [["First", "Second"], ["Second", "First"]]) := by
    decide +kernel
  refine ⟨⟨merged, ?_⟩, ⟨stuck, ?_⟩, rejected, ?_⟩
  · exact ((merge_decides_commonOrder.1 _).2.1 _ merged).1
  · exact (merge_decides_commonOrder.1 _).2.2 _ stuck
  · exact ((merge_decides_commonOrder.2 crossedTree "Crossed").1 _ _ rejected).2

/-- `Near` has `First` in front of `Second` although no base list asks for this, and
`Far` asks for the opposite. -/
def eagerTree : InheritanceTree where
  declared := NameMap.ofList
    [("Port", ["First"]), ("Near", ["Port", "Second"]), ("Far", ["Second", "First"]),
      ("Whole", ["Near", "Far"])]

/-- A hierarchy may be rejected although an order respects all of its base lists. -/
theorem eagerTree_rejected :
    eagerTree.ancestorsOf "Whole" =
      .error (.inconsistent "Whole" [["First", "Second"], ["Second", "First"]]) ∧
    CommonOrder (eagerTree.contracts.map fun name => name :: eagerTree.basesOf name)
      ["Whole", "Near", "Far", "Port", "Second", "First"] := by
  constructor
  · decide +kernel
  · constructor
    · decide
    · decide +kernel

/-! ## The table, one contract, and no memo -/

/-- What the table of a tree answers for a name is what is computed for this name
alone, and what the recursion finds that remembers nothing but its path. -/
theorem linearization_without_memo (tree : InheritanceTree) (contract : String) :
    tree.linearize.ancestorsOf contract = tree.ancestorsOf contract ∧
      tree.ancestorsOf contract = (tree.orderOnPath [] contract).map List.tail :=
  ⟨ancestorsOf_linearize tree contract, ancestorsOf_eq_orderOnPath tree contract⟩

end InheritanceTree

end SolidityModel
