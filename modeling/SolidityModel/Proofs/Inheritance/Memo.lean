import SolidityModel.Proofs.Inheritance.Walk

/-!
# What the memo may answer

An entry of the memo is an order that the rule of linearization derives
(`OrderMemo.Sound`).  Whether the walk that wrote it stood on another path, or
failed later on, leaves no trace in it.  A walk that meets an entry could not
have failed below it either, as a cycle back to its path would be a cycle of the
contract entered.  So the memo is of no influence on any outcome.
-/

namespace SolidityModel

/-- Every entry is the order that the rule of linearization gives. -/
def OrderMemo.Sound (tree : InheritanceTree) (memo : OrderMemo) : Prop :=
  ∀ contract order, memo.get? contract = some order → tree.HasOrder contract order

theorem OrderMemo.sound_empty (tree : InheritanceTree) :
    OrderMemo.Sound tree NameMap.empty := by
  intro contract order found
  cases found

theorem OrderMemo.Sound.insert {tree : InheritanceTree} {memo : OrderMemo}
    (sound : OrderMemo.Sound tree memo) {contract : String} {order : List String}
    (derived : tree.HasOrder contract order) :
    OrderMemo.Sound tree (memo.insert contract order) := by
  intro name other found
  rw [NameMap.get?_insert] at found
  split at found
  next equal =>
    cases found
    exact equal ▸ derived
  next => exact sound name other found

/-- An outcome with a memo that answers like a computation without one and leaves
nothing unsound behind. -/
structure Answers {α : Type} (tree : InheritanceTree) (expected : Except InheritanceError α)
    (outcome : Except InheritanceError α × OrderMemo) : Prop where
  eq : outcome.1 = expected
  sound : OrderMemo.Sound tree outcome.2

/-- Visits that answer like visits without a memo do so one after another. -/
theorem visitAll_answers {tree : InheritanceTree}
    {visit : String → OrderMemo → Except InheritanceError (List String) × OrderMemo}
    {visitAnew : String → Except InheritanceError (List String)} {names : List String}
    (answers : ∀ name ∈ names, ∀ memo, OrderMemo.Sound tree memo →
      Answers tree (visitAnew name) (visit name memo))
    {memo : OrderMemo} (sound : OrderMemo.Sound tree memo) :
    Answers tree (names.mapM visitAnew) (visitAll visit names memo) := by
  induction names generalizing memo with
  | nil => exact ⟨rfl, sound⟩
  | cons name rest ih =>
      rcases List.forall_mem_cons.mp answers with ⟨here, others⟩
      have first := here memo sound
      rw [visitAll, List.mapM_cons, ← first.eq]
      generalize visit name memo = outcome at first ⊢
      rcases outcome with ⟨error | order, written⟩
      · exact ⟨rfl, first.sound⟩
      · have later := ih others first.sound
        rw [← later.eq]
        dsimp only at later ⊢
        generalize visitAll visit rest written = outcome at later ⊢
        rcases outcome with ⟨error | orders, left⟩
        · exact ⟨rfl, later.sound⟩
        · exact ⟨rfl, later.sound⟩

namespace InheritanceTree

variable {tree : InheritanceTree} {active : List String} {contract : String}
  {memo : OrderMemo}

/-! ## One walk -/

theorem orderFrom_of_get? {order : List String} (entered : memo.get? contract = some order) :
    tree.orderFrom active contract memo = (.ok order, memo) := by
  rw [orderFrom]
  split
  next other found => rw [Option.some.inj (found.symm.trans entered)]
  next absent => rw [absent] at entered; cases entered

theorem orderFrom_of_mem (absent : memo.get? contract = none) (onPath : contract ∈ active) :
    tree.orderFrom active contract memo =
      (.error (.cyclic contract (loopThrough contract active)), memo) := by
  rw [orderFrom]
  split
  next other found => rw [absent] at found; cases found
  next => rw [dif_pos onPath]

/-- A contract without bases goes the way of all others: nothing is to be visited,
and the merge of its empty base list is empty. -/
theorem orderFrom_of_not_mem (absent : memo.get? contract = none) (fresh : contract ∉ active) :
    tree.orderFrom active contract memo =
      match visitAll (tree.orderFrom (active ++ [contract])) (tree.basesOf contract) memo with
      | (.error error, written) => (.error error, written)
      | (.ok orders, written) =>
          match merge (orders ++ [tree.basesOf contract]) with
          | .error remaining => (.error (.inconsistent contract remaining), written)
          | .ok ancestors =>
              (.ok (contract :: ancestors), written.insert contract (contract :: ancestors)) := by
  rw [orderFrom]
  split
  next other found => rw [absent] at found; cases found
  next =>
    rw [dif_neg fresh]
    split
    next declares => rfl
    next declaresNone =>
      have noBases : tree.basesOf contract = [] := Decidable.not_not.mp declaresNone
      have mergeEmpty : merge [[]] = .ok [] := merge_of_used_up rfl
      simp only [noBases, visitAll, List.nil_append, mergeEmpty]

/-- A walk whose path leads to the contract it stands at. -/
theorem orderFrom_answers (tree : InheritanceTree) (active : List String) (contract : String) :
    (∀ name ∈ active, tree.Inherits name contract) → ∀ memo, OrderMemo.Sound tree memo →
      Answers tree (tree.orderOnPath active contract) (tree.orderFrom active contract memo) := by
  induction active, contract using walk_induction tree with
  | step active contract ih =>
      intro path memo sound
      cases entered : memo.get? contract with
      | some order =>
          have derived := sound contract order entered
          have clear : ∀ name ∈ active, ¬tree.Reaches contract name := by
            intro name member reaches
            exact derived.not_inherits_self
              (Relation.TransGen.trans_right reaches (path name member))
          rw [orderFrom_of_get? entered]
          exact ⟨(orderOnPath_of_hasOrder derived clear).symm, sound⟩
      | none =>
          by_cases onPath : contract ∈ active
          · rw [orderFrom_of_mem entered onPath]
            exact ⟨(orderOnPath_of_mem onPath).symm, sound⟩
          · have further : ∀ base ∈ tree.basesOf contract, ∀ name ∈ active ++ [contract],
                tree.Inherits name base := by
              intro base isBase name member
              rcases List.mem_append.mp member with before | isSelf
              · exact (path name before).tail isBase
              · exact List.mem_singleton.mp isSelf ▸ .single isBase
            have visited := visitAll_answers
              (fun base isBase memo sound => ih onPath base isBase (further base isBase) memo sound)
              sound
            have expected : tree.orderOnPath active contract = _ := orderOnPath_of_not_mem onPath
            rw [← visited.eq] at expected
            rw [orderFrom_of_not_mem entered onPath]
            rcases outcome : visitAll (tree.orderFrom (active ++ [contract]))
              (tree.basesOf contract) memo with ⟨error | orders, written⟩
            · rw [outcome] at expected visited
              exact ⟨expected.symm, visited.sound⟩
            · rw [outcome] at expected visited
              simp only [Except.bind] at expected ⊢
              cases merged : merge (orders ++ [tree.basesOf contract]) with
              | error remaining =>
                  rw [merged] at expected
                  exact ⟨expected.symm, visited.sound⟩
              | ok ancestors =>
                  rw [merged] at expected
                  exact ⟨expected.symm,
                    visited.sound.insert (hasOrder_of_orderOnPath expected).1⟩

/-- Every walk from a start on finds what it would find without a memo. -/
theorem orderFrom_nil_answers (contract : String) (sound : OrderMemo.Sound tree memo) :
    Answers tree (tree.orderOnPath [] contract) (tree.orderFrom [] contract memo) :=
  orderFrom_answers tree [] contract (by simp) memo sound

theorem ancestorsOf_eq_orderOnPath (tree : InheritanceTree) (contract : String) :
    tree.ancestorsOf contract = (tree.orderOnPath [] contract).map List.tail := by
  rw [ancestorsOf, (orderFrom_nil_answers contract (OrderMemo.sound_empty tree)).eq]

/-- The ancestors of a contract are its order without the contract. -/
theorem ancestorsOf_eq_ok_iff {ancestors : List String} :
    tree.ancestorsOf contract = .ok ancestors ↔
      tree.HasOrder contract (contract :: ancestors) := by
  rw [ancestorsOf_eq_orderOnPath]
  constructor
  · intro found
    cases walked : tree.orderOnPath [] contract with
    | error error => rw [walked] at found; cases found
    | ok order =>
        have derived := (hasOrder_of_orderOnPath walked).1
        rcases derived.exists_eq_cons with ⟨others, rfl⟩
        rw [walked] at found
        cases found
        exact derived
  · intro derived
    rw [orderOnPath_of_hasOrder derived (by simp)]
    rfl

/-! ## The walks of a table -/

/-- A linearization holds the outcomes for some contracts and nothing else. -/
structure Tabulates (tree : InheritanceTree) (contracts : List String)
    (linearization : Linearization) : Prop where
  orders : ∀ contract ancestors, linearization.orders.get? contract = some ancestors ↔
    contract ∈ contracts ∧ tree.ancestorsOf contract = .ok ancestors
  failures : ∀ contract error, linearization.failures.get? contract = some error ↔
    contract ∈ contracts ∧ tree.ancestorsOf contract = .error error

theorem tabulates_nil (tree : InheritanceTree) : tree.Tabulates [] Linearization.empty := by
  constructor <;> simp [Linearization.empty]

theorem Tabulates.record {contracts : List String} {linearization : Linearization}
    (tabulates : tree.Tabulates contracts linearization)
    {outcome : Except InheritanceError (List String)}
    (outcomeEq : tree.ancestorsOf contract = outcome.map List.tail) :
    tree.Tabulates (contracts ++ [contract]) (linearization.record contract outcome) := by
  constructor
  · intro name ancestors
    by_cases equal : name = contract
    · subst equal
      cases outcome <;> simp [Linearization.record, tabulates.orders, outcomeEq, Except.map]
    · cases outcome <;> simp [Linearization.record, tabulates.orders, equal]
  · intro name error
    by_cases equal : name = contract
    · subst equal
      cases outcome <;> simp [Linearization.record, tabulates.failures, outcomeEq, Except.map]
    · cases outcome <;> simp [Linearization.record, tabulates.failures, equal]

theorem linearizeAll_concat (tree : InheritanceTree) (contracts : List String)
    (contract : String) :
    tree.linearizeAll (contracts ++ [contract]) =
      ((tree.linearizeAll contracts).1.record contract
          (tree.orderFrom [] contract (tree.linearizeAll contracts).2).1,
        (tree.orderFrom [] contract (tree.linearizeAll contracts).2).2) := by
  simp only [linearizeAll, List.foldl_append, List.foldl_cons, List.foldl_nil]

/-- A linearization goes through its contracts with one memo, which stays sound
from contract to contract. -/
theorem linearizeAll_tabulates (tree : InheritanceTree) (contracts : List String) :
    tree.Tabulates contracts (tree.linearizeAll contracts).1 ∧
      OrderMemo.Sound tree (tree.linearizeAll contracts).2 := by
  induction contracts using List.reverseRecOn with
  | nil => exact ⟨tabulates_nil tree, OrderMemo.sound_empty tree⟩
  | append_singleton contracts contract ih =>
      rcases ih with ⟨tabulates, sound⟩
      have answers := orderFrom_nil_answers contract sound
      rw [linearizeAll_concat]
      exact ⟨tabulates.record (by rw [answers.eq, ancestorsOf_eq_orderOnPath]), answers.sound⟩

/-- A contract without bases has no ancestors. -/
theorem ancestorsOf_of_basesOf_eq_nil (noBases : tree.basesOf contract = []) :
    tree.ancestorsOf contract = .ok [] := by
  refine ancestorsOf_eq_ok_iff.mpr (.intro (fun _ => []) ?_ ?_)
  · intro base isBase
    rw [noBases] at isBase
    cases isBase
  · rw [noBases]
    exact merge_of_used_up rfl

theorem basesOf_of_not_mem_contracts (absent : contract ∉ tree.contracts) :
    tree.basesOf contract = [] :=
  Decidable.not_not.mp fun declares => absent (mem_contracts_of_basesOf declares)

/-- The table of a tree holds what is found for each contract by itself. -/
theorem ancestorsOf_linearize (tree : InheritanceTree) (contract : String) :
    tree.linearize.ancestorsOf contract = tree.ancestorsOf contract := by
  have tabulates := (linearizeAll_tabulates tree tree.contracts).1
  rw [linearize, Linearization.ancestorsOf]
  cases failed : (tree.linearizeAll tree.contracts).1.failures.get? contract with
  | some error => exact ((tabulates.failures contract error).mp failed).2.symm
  | none =>
      cases ordered : (tree.linearizeAll tree.contracts).1.orders.get? contract with
      | some ancestors => exact ((tabulates.orders contract ancestors).mp ordered).2.symm
      | none =>
          have absent : contract ∉ tree.contracts := by
            intro member
            cases outcome : tree.ancestorsOf contract with
            | ok ancestors =>
                have entered := (tabulates.orders contract ancestors).mpr ⟨member, outcome⟩
                rw [ordered] at entered
                cases entered
            | error error =>
                have entered := (tabulates.failures contract error).mpr ⟨member, outcome⟩
                rw [failed] at entered
                cases entered
          exact (ancestorsOf_of_basesOf_eq_nil (basesOf_of_not_mem_contracts absent)).symm

end InheritanceTree

end SolidityModel
