import Mathlib.Data.List.Basic
import SolidityModel.Inheritance.Linearization
import SolidityModel.Proofs.Inheritance.Order

/-!
# Walks without a memo

The recursion of the linearization as it is without a memo, when a walk carries
nothing but its active path.  It finds an order exactly where the rule of
linearization derives one and the path does not close a cycle
(`InheritanceTree.orderOnPath_eq_ok_iff`), so that a success depends on the path
only through the cycles that it can close.
-/

namespace SolidityModel

/-- A list of outcomes without a failure. -/
theorem mapM_eq_ok_iff {ε α β : Type} [Inhabited β] {visit : α → Except ε β}
    {names : List α} {results : List β} :
    names.mapM visit = .ok results ↔
      ∃ resultOf : α → β, (∀ name ∈ names, visit name = .ok (resultOf name)) ∧
        results = names.map resultOf := by
  constructor
  · intro visited
    let resultOf := fun name => (visit name).toOption.getD default
    refine ⟨resultOf, ?_⟩
    induction names generalizing results with
    | nil => cases visited; simp
    | cons name rest ih =>
        rw [List.mapM_cons] at visited
        cases first : visit name with
        | error error => rw [first] at visited; cases visited
        | ok result =>
            cases later : rest.mapM visit with
            | error error => rw [first, later] at visited; cases visited
            | ok others =>
                rw [first, later] at visited
                cases visited
                rcases ih later with ⟨each, rfl⟩
                have resultEq : resultOf name = result := by
                  simp only [resultOf, first]
                  rfl
                exact ⟨List.forall_mem_cons.mpr ⟨resultEq ▸ first, each⟩, by rw [← resultEq]; rfl⟩
  · rintro ⟨resultOf, each, rfl⟩
    induction names with
    | nil => rfl
    | cons name rest ih =>
        rcases List.forall_mem_cons.mp each with ⟨here, others⟩
        rw [List.mapM_cons, here, ih others]
        rfl

/-- A list of outcomes fails with one of its failures. -/
theorem exists_of_mapM_eq_error {ε α β : Type} {visit : α → Except ε β} {names : List α}
    {error : ε} (failed : names.mapM visit = .error error) :
    ∃ name ∈ names, visit name = .error error := by
  induction names with
  | nil => cases failed
  | cons name rest ih =>
      rw [List.mapM_cons] at failed
      cases first : visit name with
      | error other =>
          rw [first] at failed
          cases failed
          exact ⟨name, List.mem_cons_self, first⟩
      | ok result =>
          cases later : rest.mapM visit with
          | error other =>
              rw [first, later] at failed
              cases failed
              rcases ih later with ⟨failing, member, failure⟩
              exact ⟨failing, List.mem_cons_of_mem name member, failure⟩
          | ok others => rw [first, later] at failed; cases failed

namespace InheritanceTree

/-- The order of a contract that a walk reaches on an active path, computed anew
wherever the walk comes by. -/
def orderOnPath (tree : InheritanceTree) (active : List String) (contract : String) :
    Except InheritanceError (List String) :=
  if _ : contract ∈ active then
    .error (.cyclic contract (loopThrough contract active))
  else do
    let orders ← (tree.basesOf contract).attach.mapM fun base =>
      orderOnPath tree (active ++ [contract]) base.1
    match merge (orders ++ [tree.basesOf contract]) with
    | .error remaining => .error (.inconsistent contract remaining)
    | .ok ancestors => .ok (contract :: ancestors)
termination_by tree.offPath active
decreasing_by exact offPath_lt (List.ne_nil_of_mem base.2) ‹_›

/-- What holds of a contract on a path once it holds of the bases one step further
holds everywhere, because every walk ends. -/
theorem walk_induction (tree : InheritanceTree) {motive : List String → String → Prop}
    (step : ∀ active contract, (contract ∉ active →
      ∀ base ∈ tree.basesOf contract, motive (active ++ [contract]) base) →
      motive active contract)
    (active : List String) (contract : String) : motive active contract :=
  step active contract fun _ base _ =>
    walk_induction tree step (active ++ [contract]) base
termination_by tree.offPath active
decreasing_by exact offPath_lt (List.ne_nil_of_mem ‹_›) ‹_›

variable {tree : InheritanceTree} {active : List String} {contract : String}
  {order : List String}

/-! ## The steps of a walk -/

theorem orderOnPath_of_mem (onPath : contract ∈ active) :
    tree.orderOnPath active contract =
      .error (.cyclic contract (loopThrough contract active)) := by
  rw [orderOnPath, dif_pos onPath]

theorem orderOnPath_of_not_mem (fresh : contract ∉ active) :
    tree.orderOnPath active contract =
      ((tree.basesOf contract).mapM (tree.orderOnPath (active ++ [contract]))).bind
        fun orders =>
          match merge (orders ++ [tree.basesOf contract]) with
          | .error remaining => .error (.inconsistent contract remaining)
          | .ok ancestors => .ok (contract :: ancestors) := by
  rw [orderOnPath, dif_neg fresh]
  have unattached : ((tree.basesOf contract).attach.mapM fun base =>
      tree.orderOnPath (active ++ [contract]) base.1) =
      (tree.basesOf contract).mapM (tree.orderOnPath (active ++ [contract])) := by
    change List.mapM (tree.orderOnPath (active ++ [contract]) ∘ Subtype.val) _ = _
    rw [← List.mapM_map, List.attach_map_subtype_val]
  rw [unattached]
  rfl

/-- A walk that finds an order has found those of the bases and merged them. -/
theorem exists_of_orderOnPath_eq_ok (found : tree.orderOnPath active contract = .ok order) :
    contract ∉ active ∧ ∃ (orderOf : String → List String) (ancestors : List String),
      (∀ base ∈ tree.basesOf contract,
        tree.orderOnPath (active ++ [contract]) base = .ok (orderOf base)) ∧
      merge ((tree.basesOf contract).map orderOf ++ [tree.basesOf contract]) = .ok ancestors ∧
      order = contract :: ancestors := by
  by_cases onPath : contract ∈ active
  · rw [orderOnPath_of_mem onPath] at found
    cases found
  · rw [orderOnPath_of_not_mem onPath] at found
    cases visited : (tree.basesOf contract).mapM (tree.orderOnPath (active ++ [contract])) with
    | error error => rw [visited] at found; cases found
    | ok orders =>
        rcases mapM_eq_ok_iff.mp visited with ⟨orderOf, each, rfl⟩
        rw [visited] at found
        simp only [Except.bind] at found
        cases merged : merge ((tree.basesOf contract).map orderOf ++ [tree.basesOf contract]) with
        | error remaining => rw [merged] at found; cases found
        | ok ancestors =>
            rw [merged] at found
            cases found
            exact ⟨onPath, orderOf, ancestors, each, merged, rfl⟩

/-- A walk fails where it closes a cycle, below a base, or where it cannot merge. -/
theorem exists_of_orderOnPath_eq_error {error : InheritanceError}
    (failed : tree.orderOnPath active contract = .error error) :
    (contract ∈ active ∧ error = .cyclic contract (loopThrough contract active)) ∨
    contract ∉ active ∧
      ((∃ base ∈ tree.basesOf contract,
          tree.orderOnPath (active ++ [contract]) base = .error error) ∨
        ∃ (orderOf : String → List String) (remaining : List (List String)),
          (∀ base ∈ tree.basesOf contract,
            tree.orderOnPath (active ++ [contract]) base = .ok (orderOf base)) ∧
          merge ((tree.basesOf contract).map orderOf ++ [tree.basesOf contract]) =
            .error remaining ∧
          error = .inconsistent contract remaining) := by
  by_cases onPath : contract ∈ active
  · rw [orderOnPath_of_mem onPath] at failed
    cases failed
    exact .inl ⟨onPath, rfl⟩
  · apply Or.inr
    rw [orderOnPath_of_not_mem onPath] at failed
    cases visited : (tree.basesOf contract).mapM (tree.orderOnPath (active ++ [contract])) with
    | error failure =>
        rw [visited] at failed
        cases failed
        exact ⟨onPath, .inl (exists_of_mapM_eq_error visited)⟩
    | ok orders =>
        rcases mapM_eq_ok_iff.mp visited with ⟨orderOf, each, rfl⟩
        rw [visited] at failed
        simp only [Except.bind] at failed
        cases merged : merge ((tree.basesOf contract).map orderOf ++ [tree.basesOf contract]) with
        | ok ancestors => rw [merged] at failed; cases failed
        | error remaining =>
            rw [merged] at failed
            cases failed
            exact ⟨onPath, .inr ⟨orderOf, remaining, each, merged, rfl⟩⟩

/-! ## What a walk finds -/

/-- A walk finds the order of a contract if the rule of linearization gives it one
and nothing that the contract reaches is on the path. -/
theorem orderOnPath_of_hasOrder (derived : tree.HasOrder contract order)
    (clear : ∀ name ∈ active, ¬tree.Reaches contract name) :
    tree.orderOnPath active contract = .ok order := by
  induction derived generalizing active with
  | @intro contract ancestors orderOf bases merged ih =>
      have self : tree.HasOrder contract (contract :: ancestors) := .intro orderOf bases merged
      have fresh : contract ∉ active := fun onPath => clear contract onPath .refl
      have found : (tree.basesOf contract).mapM (tree.orderOnPath (active ++ [contract])) =
          .ok ((tree.basesOf contract).map orderOf) := by
        refine mapM_eq_ok_iff.mpr ⟨orderOf, fun base isBase => ih base isBase ?_, rfl⟩
        intro name member reaches
        rcases List.mem_append.mp member with onPath | isSelf
        · exact clear name onPath (.head isBase reaches)
        · rw [List.mem_singleton.mp isSelf] at reaches
          exact self.not_inherits_self (inherits_iff.mpr ⟨base, isBase, reaches⟩)
      rw [orderOnPath_of_not_mem fresh, found]
      simp only [Except.bind, merged]

/-- What a walk finds is the order that the rule gives, and it met nothing on its
path. -/
theorem hasOrder_of_orderOnPath (found : tree.orderOnPath active contract = .ok order) :
    tree.HasOrder contract order ∧ ∀ name ∈ active, ¬tree.Reaches contract name := by
  induction active, contract using walk_induction tree generalizing order with
  | step active contract ih =>
      rcases exists_of_orderOnPath_eq_ok found with
        ⟨fresh, orderOf, ancestors, each, merged, rfl⟩
      have ofBase := fun base isBase => ih fresh base isBase (each base isBase)
      constructor
      · exact .intro orderOf (fun base isBase => (ofBase base isBase).1) merged
      · intro name member reaches
        rcases reaches_iff_eq_or_inherits.mp reaches with rfl | inherits
        · exact fresh member
        · rcases inherits_iff.mp inherits with ⟨base, isBase, further⟩
          exact (ofBase base isBase).2 name (List.mem_append_left _ member) further

theorem orderOnPath_eq_ok_iff :
    tree.orderOnPath active contract = .ok order ↔
      tree.HasOrder contract order ∧ ∀ name ∈ active, ¬tree.Reaches contract name :=
  ⟨hasOrder_of_orderOnPath, fun ⟨derived, clear⟩ => orderOnPath_of_hasOrder derived clear⟩

/-- A walk that cannot merge fails at a contract that it reaches, whose bases have
orders all the same. -/
theorem merge_error_of_orderOnPath {failing : String} {remaining : List (List String)}
    (failed : tree.orderOnPath active contract = .error (.inconsistent failing remaining)) :
    tree.Reaches contract failing ∧
      ∃ orderOf : String → List String,
        (∀ base ∈ tree.basesOf failing, tree.HasOrder base (orderOf base)) ∧
        merge ((tree.basesOf failing).map orderOf ++ [tree.basesOf failing]) =
          .error remaining := by
  induction active, contract using walk_induction tree with
  | step active contract ih =>
      rcases exists_of_orderOnPath_eq_error failed with
        ⟨_, isCyclic⟩ | ⟨fresh, ⟨base, isBase, below⟩ | ⟨orderOf, left, each, merged, equal⟩⟩
      · cases isCyclic
      · rcases ih fresh base isBase below with ⟨reaches, stuck⟩
        exact ⟨.head isBase reaches, stuck⟩
      · cases equal
        exact ⟨.refl, orderOf,
          fun base isBase => (hasOrder_of_orderOnPath (each base isBase)).1, merged⟩

end InheritanceTree

end SolidityModel
