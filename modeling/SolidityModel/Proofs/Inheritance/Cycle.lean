import Mathlib.Data.List.Chain
import Mathlib.Data.List.Nodup
import SolidityModel.Inheritance.Diamonds
import SolidityModel.Proofs.Inheritance.Memo

/-!
# Cycles

Two walks run up the hierarchy of a contract, one that orders its ancestors and one
that counts the paths to them, and each has a guard of its own against cycles.  The
walk that counts ends where and only where no cycle is in reach
(`InheritanceTree.clear_of_countPathsFrom`).  As both walks visit the bases in the
same order, a cycle that stops the ordering also stops the count, and in the same
place (`InheritanceTree.countPathsFrom_follows`).
-/

namespace SolidityModel

/-! ## Folds that can fail -/

section Folds

variable {ε α σ : Type} {visit : σ → α → Except ε σ} {names : List α} {start : σ}

/-- A fold fails at one of its steps. -/
theorem exists_of_foldlM_eq_error {error : ε} (failed : names.foldlM visit start = .error error) :
    ∃ name ∈ names, ∃ state, visit state name = .error error := by
  induction names generalizing start with
  | nil => cases failed
  | cons name rest ih =>
      rw [List.foldlM_cons] at failed
      cases first : visit start name with
      | error other =>
          rw [first] at failed
          cases failed
          exact ⟨name, List.mem_cons_self, start, first⟩
      | ok next =>
          rw [first] at failed
          rcases ih failed with ⟨failing, member, state, failure⟩
          exact ⟨failing, List.mem_cons_of_mem name member, state, failure⟩

/-- A fold that succeeds has made all of its steps. -/
theorem exists_of_foldlM_eq_ok {final : σ} (folded : names.foldlM visit start = .ok final) :
    ∀ name ∈ names, ∃ state next, visit state name = .ok next := by
  induction names generalizing start with
  | nil => simp
  | cons name rest ih =>
      rw [List.foldlM_cons] at folded
      cases first : visit start name with
      | error error => rw [first] at folded; cases folded
      | ok next =>
          rw [first] at folded
          exact List.forall_mem_cons.mpr ⟨⟨start, next, first⟩, ih folded⟩

end Folds

namespace InheritanceTree

variable {tree : InheritanceTree} {active : List String} {root contract : String}
  {counts : NameMap Nat}

/-! ## Contracts without a cycle above them -/

/-- Nothing that a contract reaches, the contract included, inherits from itself. -/
def AcyclicAbove (tree : InheritanceTree) (contract : String) : Prop :=
  ∀ name, tree.Reaches contract name → ¬tree.Inherits name name

/-- No walk from a contract on meets a cycle or comes back to the path that led to
it. -/
structure Clear (tree : InheritanceTree) (active : List String) (contract : String) : Prop where
  acyclic : tree.AcyclicAbove contract
  ahead : ∀ name ∈ active, ¬tree.Reaches contract name

theorem clear_nil_iff : tree.Clear [] contract ↔ tree.AcyclicAbove contract :=
  ⟨fun clear => clear.acyclic, fun acyclic => ⟨acyclic, by simp⟩⟩

/-- The way from a contract is clear if the ways from its bases are, with the
contract itself on the path. -/
theorem clear_iff :
    tree.Clear active contract ↔ contract ∉ active ∧
      ∀ base ∈ tree.basesOf contract, tree.Clear (active ++ [contract]) base := by
  constructor
  · intro clear
    refine ⟨fun onPath => clear.ahead contract onPath .refl, fun base isBase => ?_⟩
    constructor
    · intro name reaches
      exact clear.acyclic name (.head isBase reaches)
    · intro name member reaches
      rcases List.mem_append.mp member with before | isSelf
      · exact clear.ahead name before (.head isBase reaches)
      · rw [List.mem_singleton.mp isSelf] at reaches
        exact clear.acyclic contract .refl (inherits_iff.mpr ⟨base, isBase, reaches⟩)
  · rintro ⟨fresh, above⟩
    constructor
    · intro name reaches
      rcases Relation.ReflTransGen.cases_head reaches with rfl | ⟨base, isBase, further⟩
      · intro cycle
        rcases inherits_iff.mp cycle with ⟨base, isBase, back⟩
        exact (above base isBase).ahead contract (by simp) back
      · exact (above base isBase).acyclic name further
    · intro name member reaches
      rcases Relation.ReflTransGen.cases_head reaches with rfl | ⟨base, isBase, further⟩
      · exact fresh member
      · exact (above base isBase).ahead name (List.mem_append_left _ member) further

/-! ## The steps of a count -/

theorem countPathsFrom_of_mem (onPath : contract ∈ active) :
    tree.countPathsFrom active contract counts =
      .error (.cyclic contract (loopThrough contract active)) := by
  rw [countPathsFrom, dif_pos onPath]

theorem countPathsFrom_of_not_mem (fresh : contract ∉ active) :
    tree.countPathsFrom active contract counts =
      (tree.basesOf contract).foldlM (fun counts base =>
        tree.countPathsFrom (active ++ [contract]) base (countPath counts base)) counts := by
  rw [countPathsFrom, dif_neg fresh]
  split
  next => rfl
  next declaresNone =>
    rw [Decidable.not_not.mp declaresNone]
    rfl

/-- A count that comes to an end has met no cycle. -/
theorem clear_of_countPathsFrom {final : NameMap Nat}
    (counted : tree.countPathsFrom active contract counts = .ok final) :
    tree.Clear active contract := by
  induction active, contract using walk_induction tree generalizing counts final with
  | step active contract ih =>
      by_cases onPath : contract ∈ active
      · rw [countPathsFrom_of_mem onPath] at counted
        cases counted
      · rw [countPathsFrom_of_not_mem onPath] at counted
        refine clear_iff.mpr ⟨onPath, fun base isBase => ?_⟩
        rcases exists_of_foldlM_eq_ok counted base isBase with ⟨state, next, below⟩
        exact ih onPath base isBase below

/-! ## The cycle that a walk closes -/

/-- A path that leads from a contract above a root through different names back to
this contract. -/
structure Cycle (tree : InheritanceTree) (root contract : String) (path : List String) :
    Prop where
  reaches : tree.Reaches root contract
  steps : path.IsChain tree.Extends
  exists_inner : ∃ inner, path = contract :: inner ++ [contract] ∧ (contract :: inner).Nodup

/-- A cycle takes its contract back to itself. -/
theorem Cycle.inherits {path : List String} (cycle : tree.Cycle root contract path) :
    tree.Inherits contract contract := by
  rcases cycle.exists_inner with ⟨inner, rfl, -⟩
  have steps := cycle.steps
  cases inner with
  | nil => exact .single steps.rel
  | cons base rest =>
      refine inherits_iff.mpr ⟨base, steps.rel, ?_⟩
      exact List.IsChain.cons_induction (tree.Reaches base) _ steps.tail
        (fun _ _ extends_ reaches => reaches.tail extends_) .refl contract (by simp)

/-- A walk from a root stands at a contract.  Its active path holds different names
and leads, base by base, from the root to the contract. -/
structure WalksTo (tree : InheritanceTree) (root : String) (active : List String)
    (contract : String) : Prop where
  nodup : active.Nodup
  steps : (active ++ [contract]).IsChain tree.Extends
  head? : (active ++ [contract]).head? = some root

namespace WalksTo

theorem nil (tree : InheritanceTree) (root : String) : tree.WalksTo root [] root :=
  ⟨.nil, .singleton root, rfl⟩

/-- The walk goes on to a base. -/
theorem step (walks : tree.WalksTo root active contract) (fresh : contract ∉ active)
    {base : String} (isBase : base ∈ tree.basesOf contract) :
    tree.WalksTo root (active ++ [contract]) base := by
  refine ⟨?nodup, ?steps, ?head⟩
  case nodup =>
    rw [← List.concat_eq_append]
    exact walks.nodup.concat fresh
  case steps =>
    rw [List.append_assoc]
    exact List.isChain_split.mpr ⟨walks.steps, .cons_cons isBase (.singleton base)⟩
  case head =>
    rw [List.head?_append, walks.head?]
    rfl

theorem reaches (walks : tree.WalksTo root active contract) : tree.Reaches root contract := by
  rcases List.head?_eq_some_iff.mp walks.head? with ⟨rest, split⟩
  have steps := walks.steps
  rw [split] at steps
  have member : contract ∈ root :: rest := split ▸ List.mem_append_right active (by simp)
  rcases List.mem_cons.mp member with rfl | inRest
  · exact .refl
  · exact List.IsChain.cons_induction (tree.Reaches root) rest steps
      (fun _ _ extends_ reaches => reaches.tail extends_) .refl contract inRest

/-- A walk that comes back to its path has gone around a cycle. -/
theorem cycle (walks : tree.WalksTo root active contract) (onPath : contract ∈ active) :
    tree.Cycle root contract (loopThrough contract active) := by
  rcases List.eq_append_cons_of_mem onPath with ⟨before, inner, rfl, fresh⟩
  have loop : loopThrough contract (before ++ contract :: inner) =
      contract :: inner ++ [contract] := by
    have passed : ∀ name ∈ before, decide (name ≠ contract) = true := by
      intro name member
      rw [decide_eq_true_eq]
      rintro rfl
      exact fresh member
    rw [loopThrough, List.dropWhile_append_of_pos passed, List.dropWhile_cons_of_neg (by simp)]
  refine ⟨walks.reaches, ?_, inner, loop, ?_⟩
  · rw [loop]
    apply walks.steps.suffix
    rw [List.append_assoc]
    exact List.suffix_append before _
  · exact walks.nodup.sublist (List.sublist_append_right before _)

end WalksTo

/-- A count that fails has gone around a cycle. -/
theorem exists_cycle_of_countPathsFrom (walks : tree.WalksTo root active contract)
    {error : InheritanceError}
    (failed : tree.countPathsFrom active contract counts = .error error) :
    ∃ name path, error = .cyclic name path ∧ tree.Cycle root name path := by
  induction active, contract using walk_induction tree generalizing counts with
  | step active contract ih =>
      by_cases onPath : contract ∈ active
      · rw [countPathsFrom_of_mem onPath] at failed
        cases failed
        exact ⟨contract, _, rfl, walks.cycle onPath⟩
      · rw [countPathsFrom_of_not_mem onPath] at failed
        rcases exists_of_foldlM_eq_error failed with ⟨base, isBase, state, below⟩
        exact ih onPath base isBase (walks.step onPath isBase) below

/-! ## Two walks side by side -/

/-- A count goes as far as an ordering: it ends where the ordering does, and it closes
the cycle that stops the ordering. -/
structure Follows {α : Type} (ordered : Except InheritanceError α)
    (count : NameMap Nat → Except InheritanceError (NameMap Nat)) : Prop where
  ok : ∀ order, ordered = .ok order → ∀ counts, ∃ final, count counts = .ok final
  cyclic : ∀ contract path, ordered = .error (.cyclic contract path) →
    ∀ counts, count counts = .error (.cyclic contract path)

namespace Follows

variable {α β : Type} {ordered : Except InheritanceError α}
  {count countLater : NameMap Nat → Except InheritanceError (NameMap Nat)}
  {next : α → Except InheritanceError β}

/-- A count that follows an ordering follows what is made of the order, if that closes
no cycle of its own. -/
theorem bind (follows : Follows ordered count)
    (noCycle : ∀ order contract path, next order ≠ .error (.cyclic contract path)) :
    Follows (ordered.bind next) count := by
  cases ordered with
  | error error =>
      refine ⟨nofun, fun contract path failed => ?_⟩
      cases failed
      exact follows.cyclic contract path rfl
  | ok order =>
      exact ⟨fun _ _ => follows.ok order rfl,
        fun contract path failed => absurd failed (noCycle order contract path)⟩

/-- A count that follows one ordering and then another follows both in a row. -/
theorem andThen (first : Follows ordered count)
    (second : ∀ order, Follows (next order) countLater) :
    Follows (ordered.bind next) fun counts => (count counts).bind countLater := by
  cases ordered with
  | error error =>
      refine ⟨nofun, fun contract path failed counts => ?_⟩
      cases failed
      rw [first.cyclic contract path rfl counts]
      rfl
  | ok order =>
      constructor
      · intro last found counts
        rcases first.ok order rfl counts with ⟨between, counted⟩
        rw [counted]
        exact (second order).ok last found between
      · intro contract path failed counts
        rcases first.ok order rfl counts with ⟨between, counted⟩
        rw [counted]
        exact (second order).cyclic contract path failed between

end Follows

/-- Walks that follow each other base by base do so over a list of bases. -/
theorem foldlM_follows {bases : List String}
    {visit : String → Except InheritanceError (List String)}
    {count : NameMap Nat → String → Except InheritanceError (NameMap Nat)}
    (follows : ∀ base ∈ bases, Follows (visit base) fun counts => count counts base) :
    Follows (bases.mapM visit) fun counts => bases.foldlM count counts := by
  induction bases with
  | nil => exact ⟨fun _ _ counts => ⟨counts, rfl⟩, nofun⟩
  | cons base rest ih =>
      rcases List.forall_mem_cons.mp follows with ⟨here, others⟩
      have later := ih others
      rw [List.mapM_cons]
      exact here.andThen fun order => later.bind fun orders contract path => nofun

/-- The count of the paths above a contract goes as far as the ordering of what is
above it. -/
theorem countPathsFrom_follows (tree : InheritanceTree) (active : List String)
    (contract : String) :
    Follows (tree.orderOnPath active contract) (tree.countPathsFrom active contract) := by
  induction active, contract using walk_induction tree with
  | step active contract ih =>
      by_cases onPath : contract ∈ active
      · rw [orderOnPath_of_mem onPath]
        refine ⟨nofun, fun name path failed counts => ?_⟩
        cases failed
        exact countPathsFrom_of_mem onPath
      · have below : Follows
            ((tree.basesOf contract).mapM (tree.orderOnPath (active ++ [contract])))
            (tree.countPathsFrom active contract) := by
          have unfolded : tree.countPathsFrom active contract = _ :=
            funext fun counts => countPathsFrom_of_not_mem onPath
          rw [unfolded]
          apply foldlM_follows
          intro base isBase
          have follows := ih onPath base isBase
          exact ⟨fun order found counts => follows.ok order found (countPath counts base),
            fun name path failed counts => follows.cyclic name path failed (countPath counts base)⟩
        rw [orderOnPath_of_not_mem onPath]
        apply below.bind
        intro orders name path stuck
        -- A merge that is stuck is no cycle.
        cases merged : merge (orders ++ [tree.basesOf contract]) with
        | error remaining => rw [merged] at stuck; cases stuck
        | ok ancestors => rw [merged] at stuck; cases stuck

/-! ## Both guards -/

/-- The two guards against cycles agree above a root. -/
structure GuardsAgree (tree : InheritanceTree) (root : String) : Prop where
  /-- The diamonds cannot be told exactly where a cycle is in reach. -/
  fails_iff : (∃ error, tree.diamonds root = .error error) ↔
    ∃ name, tree.Reaches root name ∧ tree.Inherits name name
  /-- The reason is then such a cycle. -/
  cycle : ∀ error, tree.diamonds root = .error error →
    ∃ contract path, error = .cyclic contract path ∧ tree.Cycle root contract path
  /-- A cycle that stops the linearization is the one that the diamonds report. -/
  same_cycle : ∀ contract path, tree.ancestorsOf root = .error (.cyclic contract path) →
    tree.diamonds root = .error (.cyclic contract path)
  /-- A cycle is never linearized. -/
  no_order : ∀ error, tree.diamonds root = .error error →
    ∃ reason, tree.ancestorsOf root = .error reason

theorem diamonds_eq_error_iff {error : InheritanceError} :
    tree.diamonds root = .error error ↔
      tree.countPathsFrom [] root NameMap.empty = .error error := by
  rw [diamonds]
  cases tree.countPathsFrom [] root NameMap.empty <;> simp [Except.map]

theorem ancestorsOf_eq_error_iff {error : InheritanceError} :
    tree.ancestorsOf contract = .error error ↔ tree.orderOnPath [] contract = .error error := by
  rw [ancestorsOf_eq_orderOnPath]
  cases tree.orderOnPath [] contract <;> simp [Except.map]

/-- Counting paths and ordering ancestors meet the same cycles. -/
theorem guardsAgree (tree : InheritanceTree) (root : String) : tree.GuardsAgree root := by
  have follows := countPathsFrom_follows tree [] root
  have cycleOf : ∀ error, tree.diamonds root = .error error →
      ∃ contract path, error = .cyclic contract path ∧ tree.Cycle root contract path :=
    fun error failed =>
      exists_cycle_of_countPathsFrom (.nil tree root) (diamonds_eq_error_iff.mp failed)
  refine ⟨⟨?met, ?inReach⟩, cycleOf, ?same, ?none⟩
  case met =>
    rintro ⟨error, failed⟩
    rcases cycleOf error failed with ⟨contract, path, -, cycle⟩
    exact ⟨contract, cycle.reaches, cycle.inherits⟩
  case inReach =>
    rintro ⟨name, reaches, cycle⟩
    cases counted : tree.countPathsFrom [] root NameMap.empty with
    | error error => exact ⟨error, diamonds_eq_error_iff.mpr counted⟩
    | ok counts => exact absurd cycle ((clear_of_countPathsFrom counted).acyclic name reaches)
  case same =>
    intro contract path failed
    exact diamonds_eq_error_iff.mpr
      (follows.cyclic contract path (ancestorsOf_eq_error_iff.mp failed) NameMap.empty)
  case none =>
    intro error failed
    cases ordered : tree.orderOnPath [] root with
    | error reason => exact ⟨reason, ancestorsOf_eq_error_iff.mpr ordered⟩
    | ok order =>
        rcases follows.ok order ordered NameMap.empty with ⟨counts, counted⟩
        rw [diamonds_eq_error_iff, counted] at failed
        cases failed

/-- A contract whose first base has no order and whose second base is its own
base. -/
def knotTree : InheritanceTree where
  declared := NameMap.ofList
    [("Near", ["First", "Second"]), ("Far", ["Second", "First"]), ("Crossed", ["Near", "Far"]),
      ("Loop", ["Ring"]), ("Ring", ["First", "Loop"]), ("Knot", ["Crossed", "Loop"])]

/-- The linearization may meet something else in front of the cycle. -/
theorem knotTree_guardsAgree :
    knotTree.diamonds "Ring" = .error (.cyclic "Ring" ["Ring", "Loop", "Ring"]) ∧
    knotTree.ancestorsOf "Ring" = .error (.cyclic "Ring" ["Ring", "Loop", "Ring"]) ∧
    knotTree.diamonds "Knot" = .error (.cyclic "Loop" ["Loop", "Ring", "Loop"]) ∧
    knotTree.ancestorsOf "Knot" =
      .error (.inconsistent "Crossed" [["First", "Second"], ["Second", "First"]]) ∧
    knotTree.GuardsAgree "Ring" ∧ knotTree.GuardsAgree "Knot" :=
  ⟨by decide +kernel, by decide +kernel, by decide +kernel, by decide +kernel,
    guardsAgree knotTree "Ring", guardsAgree knotTree "Knot"⟩

end InheritanceTree

end SolidityModel
