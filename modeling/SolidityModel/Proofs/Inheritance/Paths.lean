import Mathlib.Data.Set.Card
import SolidityModel.Proofs.Inheritance.Preorder

/-!
# Paths to ancestors

A path up a hierarchy takes a base of the base list at every step, and paths differ
where they take bases at different positions, even if these go by the same name.
Each path leaves its trace in the preorder, so that the preorder lists a name as
often as paths lead to it (`InheritanceTree.encard_pathsThrough_basesOf`).  What a
report of diamonds counts are therefore the paths
(`InheritanceTree.countsPaths_of_diamonds`).
-/

namespace SolidityModel

namespace InheritanceTree

variable {tree : InheritanceTree} {active bases : List String} {root contract name : String}
  {path : List Nat} {report : DiamondReport}

/-! ## Paths as positions -/

/-- Where a path leads that takes at every step the base at the next of the given
positions. -/
def follow? (tree : InheritanceTree) : (contract : String) → List Nat → Option String
  | contract, [] => some contract
  | contract, position :: rest =>
      (tree.basesOf contract)[position]?.bind fun base => tree.follow? base rest

/-- The paths from one contract to another. -/
def pathsTo (tree : InheritanceTree) (root name : String) : Set (List Nat) :=
  {path | tree.follow? root path = some name}

/-- The paths that begin with a step to one of the given bases. -/
def pathsThrough (tree : InheritanceTree) (bases : List String) (name : String) :
    Set (List Nat) :=
  {path | ∃ position rest base, path = position :: rest ∧ bases[position]? = some base ∧
    rest ∈ tree.pathsTo base name}

theorem reaches_of_mem_pathsTo (leads : path ∈ tree.pathsTo contract name) :
    tree.Reaches contract name := by
  induction path generalizing contract with
  | nil =>
      cases leads
      exact .refl
  | cons position rest ih =>
      rcases Option.bind_eq_some_iff.mp leads with ⟨base, found, further⟩
      exact .head (List.mem_of_getElem? found) (ih further)

theorem inherits_of_mem_pathsThrough
    (leads : path ∈ tree.pathsThrough (tree.basesOf contract) name) :
    tree.Inherits contract name := by
  rcases leads with ⟨position, rest, base, rfl, found, further⟩
  exact inherits_iff.mpr ⟨base, List.mem_of_getElem? found, reaches_of_mem_pathsTo further⟩

/-- A path has no step at all or leads through a base. -/
theorem pathsTo_eq (tree : InheritanceTree) (contract name : String) :
    tree.pathsTo contract name =
      {path | path = [] ∧ contract = name} ∪ tree.pathsThrough (tree.basesOf contract) name := by
  ext path
  cases path with
  | nil => simp [pathsTo, pathsThrough, follow?]
  | cons position rest =>
      simp only [pathsTo, pathsThrough, follow?, Set.mem_ofPred_eq, Set.mem_union,
        Option.bind_eq_some_iff, reduceCtorEq, false_and, false_or, List.cons.injEq]
      constructor
      · rintro ⟨base, found, further⟩
        exact ⟨position, rest, base, ⟨rfl, rfl⟩, found, further⟩
      · rintro ⟨_, _, base, ⟨rfl, rfl⟩, found, further⟩
        exact ⟨base, found, further⟩

/-- The same path with its first step to the base behind. -/
def toNextBase : List Nat → List Nat
  | [] => []
  | position :: rest => (position + 1) :: rest

theorem toNextBase_injective : Function.Injective toNextBase := by
  intro left right same
  cases left <;> cases right <;> simp_all [toNextBase]

/-- A path goes through the first base or through one of the others. -/
theorem pathsThrough_cons (tree : InheritanceTree) (base : String) (bases : List String)
    (name : String) :
    tree.pathsThrough (base :: bases) name =
      (0 :: ·) '' tree.pathsTo base name ∪ toNextBase '' tree.pathsThrough bases name := by
  ext path
  constructor
  · rintro ⟨position, rest, other, rfl, found, further⟩
    cases position with
    | zero =>
        cases found
        exact .inl ⟨rest, further, rfl⟩
    | succ position =>
        exact .inr ⟨position :: rest, ⟨position, rest, other, rfl, found, further⟩, rfl⟩
  · rintro (⟨rest, further, rfl⟩ | ⟨_, ⟨position, rest, other, rfl, found, further⟩, rfl⟩)
    · exact ⟨0, rest, base, rfl, rfl, further⟩
    · exact ⟨position + 1, rest, other, rfl, found, further⟩

/-! ## As many paths as places in the preorder -/

theorem encard_pathsTo (tree : InheritanceTree) (contract name : String) :
    (tree.pathsTo contract name).encard =
      (tree.pathsThrough (tree.basesOf contract) name).encard +
        if contract = name then 1 else 0 := by
  have disjoint : Disjoint {path : List Nat | path = [] ∧ contract = name}
      (tree.pathsThrough (tree.basesOf contract) name) := by
    rw [Set.disjoint_left]
    rintro _ ⟨rfl, -⟩ ⟨position, rest, base, isCons, -⟩
    cases isCons
  rw [pathsTo_eq, Set.encard_union_eq disjoint, add_comm]
  congr 1
  split
  next same => simp [same]
  next different => simp [different]

theorem encard_pathsThrough {below : String → List String}
    (each : ∀ base ∈ bases,
      (tree.pathsTo base name).encard = ((base :: below base).count name : ℕ)) :
    (tree.pathsThrough bases name).encard =
      ((bases.flatMap fun base => base :: below base).count name : ℕ) := by
  induction bases with
  | nil => simp [pathsThrough]
  | cons base rest ih =>
      rcases List.forall_mem_cons.mp each with ⟨here, others⟩
      have disjoint : Disjoint ((0 :: ·) '' tree.pathsTo base name)
          (toNextBase '' tree.pathsThrough rest name) := by
        rw [Set.disjoint_left]
        rintro _ ⟨first, -, rfl⟩ ⟨_, ⟨position, further, other, rfl, -⟩, same⟩
        cases same
      rw [pathsThrough_cons, Set.encard_union_eq disjoint,
        (List.cons_injective).encard_image, toNextBase_injective.encard_image, here, ih others,
        List.flatMap_cons, List.count_append, Nat.cast_add]

/-- The preorder lists a name as often as paths of at least one step lead to it. -/
theorem encard_pathsThrough_basesOf (clear : tree.Clear active contract) :
    (tree.pathsThrough (tree.basesOf contract) name).encard =
      ((tree.preorderOnPath active contract).count name : ℕ) := by
  induction active, contract using walk_induction tree with
  | step active contract ih =>
      rcases clear_iff.mp clear with ⟨fresh, above⟩
      rw [preorderOnPath_of_not_mem fresh]
      apply encard_pathsThrough
      intro base isBase
      rw [encard_pathsTo, ih fresh base isBase (above base isBase), List.count_cons, Nat.cast_add]
      simp

theorem encard_pathsThrough_eq_count (acyclic : tree.AcyclicAbove root) :
    (tree.pathsThrough (tree.basesOf root) name).encard = ((tree.preorder root).count name : ℕ) :=
  encard_pathsThrough_basesOf (clear_nil_iff.mpr acyclic)

/-- No path of at least one step leads back to a contract without a cycle. -/
theorem count_preorder_self (acyclic : tree.AcyclicAbove root) :
    (tree.preorder root).count root = 0 := by
  have none : tree.pathsThrough (tree.basesOf root) root = ∅ := by
    apply Set.eq_empty_of_forall_notMem
    intro path leads
    exact acyclic root .refl (inherits_of_mem_pathsThrough leads)
  have counted : (0 : ℕ∞) = ((tree.preorder root).count root : ℕ) := by
    rw [← encard_pathsThrough_eq_count acyclic, none, Set.encard_empty]
  exact_mod_cast counted.symm

theorem encard_pathsTo_of_ne (acyclic : tree.AcyclicAbove root) (different : name ≠ root) :
    (tree.pathsTo root name).encard = ((tree.preorder root).count name : ℕ) := by
  rw [encard_pathsTo, encard_pathsThrough_eq_count acyclic, if_neg (Ne.symm different), add_zero]

/-! ## What a report counts -/

/-- A report on the diamonds above a root tells the paths to the ancestors. -/
structure CountsPaths (tree : InheritanceTree) (root : String) (report : DiamondReport) :
    Prop where
  root_eq : report.root = root
  /-- The names that more than one path leads to, and no others, are reported. -/
  mem_names_iff : ∀ name, name ∈ report.counts.names ↔ (tree.pathsTo root name).Nontrivial
  /-- Each is reported with the number of all paths that lead to it. -/
  encard_eq : ∀ name count, report.counts.get? name = some count →
    (tree.pathsTo root name).encard = (count : ℕ)
  root_not_mem : root ∉ report.counts.names
  /-- The order of the ancestors, if there is one, lists all names that are reported. -/
  mem_ancestors : ∀ ancestors, tree.ancestorsOf root = .ok ancestors →
    ∀ name ∈ report.counts.names, name ∈ ancestors

theorem mem_names_of_diamonds (reported : tree.diamonds root = .ok report) :
    name ∈ report.counts.names ↔ 1 < (tree.preorder root).count name := by
  rw [NameMap.mem_names_iff, Option.isSome_iff_exists]
  simp only [get?_counts_of_diamonds reported]
  constructor
  · rintro ⟨count, rfl, several⟩
    exact several
  · intro several
    exact ⟨_, rfl, several⟩

theorem countsPaths_of_diamonds (reported : tree.diamonds root = .ok report) :
    tree.CountsPaths root report := by
  have acyclic := acyclicAbove_of_diamonds reported
  have rootNotMem : root ∉ report.counts.names := by
    rw [mem_names_of_diamonds reported, count_preorder_self acyclic]
    omega
  refine ⟨?root, ?names, ?counts, rootNotMem, ?ancestors⟩
  case root =>
    rw [diamonds_of_acyclicAbove acyclic] at reported
    cases reported
    rfl
  case names =>
    intro name
    rw [← Set.one_lt_encard_iff_nontrivial]
    by_cases same : name = root
    · subst same
      simp [rootNotMem, encard_pathsTo, encard_pathsThrough_eq_count acyclic,
        count_preorder_self acyclic]
    · rw [mem_names_of_diamonds reported, encard_pathsTo_of_ne acyclic same]
      exact Nat.one_lt_cast.symm
  case counts =>
    intro name count entered
    have different : name ≠ root := by
      rintro rfl
      exact rootNotMem (NameMap.mem_names_iff.mpr (Option.isSome_of_eq_some entered))
    rw [encard_pathsTo_of_ne acyclic different, ((get?_counts_of_diamonds reported).mp entered).1]
  case ancestors =>
    intro ancestors found name member
    rw [(ancestorsOf_eq_ok_iff.mp found).mem_ancestors_iff]
    have several := (mem_names_of_diamonds reported).mp member
    have leads : (tree.pathsThrough (tree.basesOf root) name).Nonempty := by
      rw [← Set.encard_ne_zero, encard_pathsThrough_eq_count acyclic]
      exact_mod_cast Nat.ne_of_gt (Nat.lt_of_succ_lt several)
    exact inherits_of_mem_pathsThrough leads.some_mem

/-- Where no cycle is in reach, the diamonds above a root are the names with several
paths to them. -/
theorem exists_countsPaths (acyclic : tree.AcyclicAbove root) :
    ∃ report, tree.diamonds root = .ok report ∧ tree.CountsPaths root report :=
  ⟨_, diamonds_of_acyclicAbove acyclic,
    countsPaths_of_diamonds (diamonds_of_acyclicAbove acyclic)⟩

/-- Two diamonds, one on top of the other, and a base that is written twice. -/
def towerTree : InheritanceTree where
  declared := NameMap.ofList
    [("Port", ["Top"]), ("Star", ["Top"]), ("Deck", ["Port", "Star"]),
      ("Left", ["Deck"]), ("Right", ["Deck"]), ("Tower", ["Left", "Right", "Left"])]

/-- The paths below a diamond multiply. -/
theorem towerTree_countsPaths :
    towerTree.AcyclicAbove "Tower" ∧
    towerTree.diamonds "Tower" = .ok ⟨"Tower", NameMap.ofList
      [("Deck", 3), ("Left", 2), ("Port", 3), ("Star", 3), ("Top", 6)]⟩ ∧
    ∃ report, towerTree.diamonds "Tower" = .ok report ∧ towerTree.CountsPaths "Tower" report := by
  have reported : towerTree.diamonds "Tower" = .ok ⟨"Tower", NameMap.ofList
      [("Deck", 3), ("Left", 2), ("Port", 3), ("Star", 3), ("Top", 6)]⟩ := by decide +kernel
  have acyclic := acyclicAbove_of_diamonds reported
  exact ⟨acyclic, reported, exists_countsPaths acyclic⟩

end InheritanceTree

end SolidityModel
