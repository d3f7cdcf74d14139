import SolidityModel.Proofs.Inheritance.Cycle

/-!
# The preorder of a hierarchy

A walk that counts paths meets the names above a contract in depth-first preorder,
each as often as paths lead to it.  What it counts is therefore how often each name
stands in the preorder (`InheritanceTree.get?_counts_of_diamonds`), and without a
diamond every name stands there once.  Then the bases share nothing that their orders
could disagree on, and the linearization is the preorder itself
(`InheritanceTree.hasOrder_of_nodup`).
-/

namespace SolidityModel

/-- A fold whose every step is a fold over the parts of an item is one fold over all
parts. -/
theorem foldlM_eq_ok_foldl_flatMap {ε α β σ : Type} {visit : σ → α → Except ε σ}
    {step : σ → β → σ} {parts : α → List β} {items : List α}
    (each : ∀ item ∈ items, ∀ state, visit state item = .ok ((parts item).foldl step state))
    (start : σ) :
    items.foldlM visit start = .ok ((items.flatMap parts).foldl step start) := by
  induction items generalizing start with
  | nil => rfl
  | cons item rest ih =>
      rcases List.forall_mem_cons.mp each with ⟨here, others⟩
      rw [List.foldlM_cons, here start, List.flatMap_cons, List.foldl_append]
      exact ih others _

/-- Every name is counted as often as it is listed. -/
theorem getD_get?_foldl_countPath (names : List String) (counts : NameMap Nat) (name : String) :
    ((names.foldl countPath counts).get? name).getD 0 =
      (counts.get? name).getD 0 + names.count name := by
  induction names generalizing counts with
  | nil => rfl
  | cons head rest ih =>
      rw [List.foldl_cons, ih, countPath, NameMap.get?_insert, List.count_cons]
      by_cases equal : name = head
      · subst equal
        simp only [if_true, Option.getD_some, beq_self_eq_true]
        omega
      · simp [equal, Ne.symm equal]

namespace InheritanceTree

variable {tree : InheritanceTree} {active other : List String} {root contract : String}
  {counts : NameMap Nat} {report : DiamondReport}

/-! ## The names that a walk meets -/

/-- The names that a walk meets above a contract: every base, and behind it what is
above the base.  The walk turns back where it would close a cycle. -/
def preorderOnPath (tree : InheritanceTree) (active : List String) (contract : String) :
    List String :=
  if _ : contract ∈ active then []
  else (tree.basesOf contract).attach.flatMap fun base =>
    base.1 :: preorderOnPath tree (active ++ [contract]) base.1
termination_by tree.offPath active
decreasing_by exact offPath_lt (List.ne_nil_of_mem base.2) ‹_›

/-- The names above a contract in depth-first preorder, each as often as there are
ways to it. -/
def preorder (tree : InheritanceTree) (contract : String) : List String :=
  tree.preorderOnPath [] contract

theorem preorderOnPath_of_not_mem (fresh : contract ∉ active) :
    tree.preorderOnPath active contract = (tree.basesOf contract).flatMap fun base =>
      base :: tree.preorderOnPath (active ++ [contract]) base := by
  rw [preorderOnPath, dif_neg fresh]
  conv_rhs => rw [← List.attach_map_subtype_val (tree.basesOf contract), List.flatMap_map]

/-- Where no cycle is met, it does not matter how the walk has come to a contract. -/
theorem preorderOnPath_congr (clear : tree.Clear active contract)
    (otherClear : tree.Clear other contract) :
    tree.preorderOnPath active contract = tree.preorderOnPath other contract := by
  induction active, contract using walk_induction tree generalizing other with
  | step active contract ih =>
      rcases clear_iff.mp clear with ⟨fresh, above⟩
      rcases clear_iff.mp otherClear with ⟨otherFresh, otherAbove⟩
      rw [preorderOnPath_of_not_mem fresh, preorderOnPath_of_not_mem otherFresh]
      apply List.flatMap_congr
      intro base isBase
      rw [ih fresh base isBase (above base isBase) (otherAbove base isBase)]

/-- The preorder of a contract puts together its bases and their preorders. -/
theorem preorder_eq (acyclic : tree.AcyclicAbove contract) :
    tree.preorder contract =
      (tree.basesOf contract).flatMap fun base => base :: tree.preorder base := by
  have clear := clear_nil_iff.mpr acyclic
  rw [preorder, preorderOnPath_of_not_mem List.not_mem_nil]
  apply List.flatMap_congr
  intro base isBase
  have above := (clear_iff.mp clear).2 base isBase
  rw [preorder, preorderOnPath_congr above (clear_nil_iff.mpr above.acyclic)]

/-! ## What is counted -/

/-- A walk that meets no cycle counts the names of the preorder. -/
theorem countPathsFrom_of_clear (clear : tree.Clear active contract) :
    tree.countPathsFrom active contract counts =
      .ok ((tree.preorderOnPath active contract).foldl countPath counts) := by
  induction active, contract using walk_induction tree generalizing counts with
  | step active contract ih =>
      rcases clear_iff.mp clear with ⟨fresh, above⟩
      rw [countPathsFrom_of_not_mem fresh, preorderOnPath_of_not_mem fresh]
      apply foldlM_eq_ok_foldl_flatMap
      intro base isBase counts
      exact ih fresh base isBase (above base isBase)

theorem diamonds_of_acyclicAbove (acyclic : tree.AcyclicAbove root) :
    tree.diamonds root = .ok ⟨root,
      ((tree.preorder root).foldl countPath NameMap.empty).filter fun _ count => 1 < count⟩ := by
  rw [diamonds, countPathsFrom_of_clear (clear_nil_iff.mpr acyclic)]
  rfl

theorem acyclicAbove_of_diamonds (reported : tree.diamonds root = .ok report) :
    tree.AcyclicAbove root := by
  cases counted : tree.countPathsFrom [] root NameMap.empty with
  | error error =>
      rw [diamonds_eq_error_iff.mpr counted] at reported
      cases reported
  | ok counts => exact (clear_of_countPathsFrom counted).acyclic

/-- A report holds the names that stand in the preorder more than once. -/
theorem get?_counts_of_diamonds (reported : tree.diamonds root = .ok report) {name : String}
    {count : Nat} :
    report.counts.get? name = some count ↔
      (tree.preorder root).count name = count ∧ 1 < count := by
  rw [diamonds_of_acyclicAbove (acyclicAbove_of_diamonds reported)] at reported
  cases reported
  have total := getD_get?_foldl_countPath (tree.preorder root) NameMap.empty name
  rw [NameMap.get?_empty, Option.getD_none, Nat.zero_add] at total
  rw [NameMap.get?_filter_eq_some_iff, decide_eq_true_eq]
  apply and_congr_left
  intro several
  cases found : ((tree.preorder root).foldl countPath NameMap.empty).get? name with
  | none =>
      rw [found, Option.getD_none] at total
      simp
      omega
  | some counted =>
      rw [found, Option.getD_some] at total
      rw [Option.some.injEq, total]

/-- An empty report means that the preorder lists nothing twice. -/
theorem nodup_preorder_of_isEmpty (reported : tree.diamonds root = .ok report)
    (empty : report.isEmpty = true) : (tree.preorder root).Nodup := by
  rw [List.nodup_iff_count_le_one]
  intro name
  by_contra several
  have entered := (get?_counts_of_diamonds reported).mpr ⟨rfl, Nat.lt_of_not_le several⟩
  have noEntries : report.counts.entries = [] := List.isEmpty_iff.mp empty
  rw [NameMap.get?_eq_some_iff, noEntries] at entered
  cases entered

/-! ## Orders without diamonds -/

theorem sublist_flatMap_cons (bases : List String) (below : String → List String) :
    bases.Sublist (bases.flatMap fun base => base :: below base) := by
  induction bases with
  | nil => exact .refl []
  | cons base rest ih =>
      rw [List.flatMap_cons, List.cons_append]
      exact (ih.trans (List.sublist_append_right _ _)).cons_cons base

/-- A contract that meets every name once is ordered by the preorder. -/
theorem hasOrder_of_nodup (clear : tree.Clear active contract)
    (distinct : (tree.preorderOnPath active contract).Nodup) :
    tree.HasOrder contract (contract :: tree.preorderOnPath active contract) := by
  induction active, contract using walk_induction tree with
  | step active contract ih =>
      rcases clear_iff.mp clear with ⟨fresh, above⟩
      rw [preorderOnPath_of_not_mem fresh] at distinct ⊢
      refine .intro (fun base => base :: tree.preorderOnPath (active ++ [contract]) base) ?_ ?_
      · intro base isBase
        have kept : (base :: tree.preorderOnPath (active ++ [contract]) base).Sublist
            ((tree.basesOf contract).flatMap fun base =>
              base :: tree.preorderOnPath (active ++ [contract]) base) :=
          List.sublist_flatten_of_mem (List.mem_map_of_mem isBase)
        exact ih fresh base isBase (above base isBase)
          (List.nodup_cons.mp (distinct.sublist kept)).2
      · apply merge_eq_flatten rfl distinct
        intro part isBaseList
        rw [List.mem_singleton.mp isBaseList]
        exact sublist_flatMap_cons _ _

theorem ancestorsOf_of_nodup (acyclic : tree.AcyclicAbove contract)
    (distinct : (tree.preorder contract).Nodup) :
    tree.ancestorsOf contract = .ok (tree.preorder contract) :=
  ancestorsOf_eq_ok_iff.mpr (hasOrder_of_nodup (clear_nil_iff.mpr acyclic) distinct)

/-- The preorder of what a contract reaches is a part of its own. -/
theorem nodup_preorder_of_reaches (acyclic : tree.AcyclicAbove root)
    (distinct : (tree.preorder root).Nodup) (reaches : tree.Reaches root contract) :
    (tree.preorder contract).Nodup := by
  induction reaches with
  | refl => exact distinct
  | @tail derived base reaches isBase ih =>
      have acyclicDerived : tree.AcyclicAbove derived := fun name further =>
        acyclic name (reaches.trans further)
      have kept : (base :: tree.preorder base).Sublist (tree.preorder derived) := by
        rw [preorder_eq acyclicDerived]
        exact List.sublist_flatten_of_mem (List.mem_map_of_mem isBase)
      exact (List.nodup_cons.mp (ih.sublist kept)).2

/-- What has a single path to each of its ancestors is ordered by the preorder, and so
is all that it inherits from.  A preorder puts together the bases, in the order in
which they are written, each in front of its own ancestors. -/
structure OrderedByPreorder (tree : InheritanceTree) (root : String) : Prop where
  ancestorsOf_eq : tree.ancestorsOf root = .ok (tree.preorder root)
  above : ∀ name, tree.Reaches root name →
    tree.ancestorsOf name = .ok (tree.preorder name) ∧
      tree.preorder name = (tree.basesOf name).flatMap fun base => base :: tree.preorder base

theorem orderedByPreorder_of_nodup (acyclic : tree.AcyclicAbove root)
    (distinct : (tree.preorder root).Nodup) : tree.OrderedByPreorder root := by
  refine ⟨ancestorsOf_of_nodup acyclic distinct, fun name reaches => ?_⟩
  have acyclicName : tree.AcyclicAbove name := fun other further =>
    acyclic other (reaches.trans further)
  exact ⟨ancestorsOf_of_nodup acyclicName (nodup_preorder_of_reaches acyclic distinct reaches),
    preorder_eq acyclicName⟩

/-- Without diamonds the linearization is the preorder, so that a hierarchy without
cycles that is inconsistent has a diamond. -/
theorem preorder_without_diamonds (tree : InheritanceTree) (root : String) :
    (∀ report, tree.diamonds root = .ok report → report.isEmpty = true →
      tree.OrderedByPreorder root) ∧
    (∀ failing remaining, tree.ancestorsOf root = .error (.inconsistent failing remaining) →
      tree.AcyclicAbove root → ∃ report, tree.diamonds root = .ok report ∧
        report.isEmpty = false) := by
  have ordered : ∀ report, tree.diamonds root = .ok report → report.isEmpty = true →
      tree.OrderedByPreorder root := fun report reported empty =>
    orderedByPreorder_of_nodup (acyclicAbove_of_diamonds reported)
      (nodup_preorder_of_isEmpty reported empty)
  refine ⟨ordered, fun failing remaining failed acyclic => ?_⟩
  have reported := diamonds_of_acyclicAbove acyclic
  refine ⟨_, reported, Bool.eq_false_iff.mpr fun empty => ?_⟩
  rw [(ordered _ reported empty).ancestorsOf_eq] at failed
  cases failed

/-- A hierarchy without diamonds, one of whose bases is defined nowhere. -/
def forkTree : InheritanceTree where
  declared := NameMap.ofList
    [("Fork", ["Left", "Right"]), ("Left", ["Upper", "Lost"]), ("Right", ["Lower"]),
      ("Upper", ["Top"])]

theorem forkTree_orderedByPreorder :
    forkTree.preorder "Fork" = ["Left", "Upper", "Top", "Lost", "Right", "Lower"] ∧
    forkTree.diamonds "Fork" = .ok ⟨"Fork", NameMap.empty⟩ ∧ forkTree.OrderedByPreorder "Fork" ∧
    knotTree.ancestorsOf "Crossed" =
      .error (.inconsistent "Crossed" [["First", "Second"], ["Second", "First"]]) ∧
    knotTree.AcyclicAbove "Crossed" ∧
    ∃ report, knotTree.diamonds "Crossed" = .ok report ∧ report.isEmpty = false := by
  have reported : forkTree.diamonds "Fork" = .ok ⟨"Fork", NameMap.empty⟩ := by decide +kernel
  have crossed : knotTree.diamonds "Crossed" =
      .ok ⟨"Crossed", NameMap.ofList [("First", 2), ("Second", 2)]⟩ := by decide +kernel
  have failed : knotTree.ancestorsOf "Crossed" =
      .error (.inconsistent "Crossed" [["First", "Second"], ["Second", "First"]]) := by
    decide +kernel
  have acyclic := acyclicAbove_of_diamonds crossed
  exact ⟨by decide +kernel, reported, (preorder_without_diamonds forkTree "Fork").1 _ reported rfl,
    failed, acyclic, (preorder_without_diamonds knotTree "Crossed").2 _ _ failed acyclic⟩

end InheritanceTree

end SolidityModel
