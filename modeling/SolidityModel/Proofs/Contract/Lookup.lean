import SolidityModel.Proofs.Contract.BaseFirst
import SolidityModel.Proofs.Contract.Placement

/-!
# Looking up a state variable

A lookup takes the last variable of a name in the list of an entry.  The own variables
stand at the end of this list, so they go first.  An inherited variable stands where it
is met first, from the nearest ancestor on, and the lookup takes the one that is met
latest.  It follows the order of the ancestors exactly if nothing else of the name is
met behind the variable of the nearest ancestor that declares one
(`SourceUnit.exists_detail_looksUp`).
-/

namespace SolidityModel

/-! ## The last value that passes a test -/

section LastValue

variable {α : Type} [BEq α] [LawfulBEq α] {met kept : List α}

/-- Where values stand as they are met first, the last one that passes a test is met
latest. -/
theorem KeepsFirst.find?_reverse_eq_some_iff (keeps : KeepsFirst met kept)
    (test : α → Bool) (value : α) :
    kept.reverse.find? test = some value ↔
      value ∈ met ∧ test value = true ∧
        ∀ other ∈ met, test other = true → met.idxOf other ≤ met.idxOf value := by
  have sorted : kept.reverse.Pairwise fun later earlier =>
      met.idxOf earlier < met.idxOf later := List.pairwise_reverse.mpr keeps.increasing
  have latest : ∀ found, kept.reverse.find? test = some found →
      found ∈ met ∧ test found = true ∧
        ∀ other ∈ met, test other = true → met.idxOf other ≤ met.idxOf found := by
    intro found isFound
    obtain ⟨passes, later, earlier, split, noneLater⟩ := List.find?_eq_some_iff_append.mp isFound
    have foundKept : found ∈ kept := List.mem_reverse.mp (List.mem_of_find?_eq_some isFound)
    refine ⟨(keeps.mem_iff found).mp foundKept, passes, fun other isMet otherPasses => ?_⟩
    have otherKept : other ∈ kept.reverse :=
      List.mem_reverse.mpr ((keeps.mem_iff other).mpr isMet)
    rw [split, List.mem_append, List.mem_cons] at otherKept
    rw [split, List.pairwise_append, List.pairwise_cons] at sorted
    rcases otherKept with isLater | rfl | isEarlier
    · exact absurd otherPasses (by simpa using noneLater other isLater)
    · exact le_rfl
    · exact (sorted.2.1.1 other isEarlier).le
  constructor
  · exact latest value
  · rintro ⟨isMet, passes, isLatest⟩
    have isKept : value ∈ kept.reverse := List.mem_reverse.mpr ((keeps.mem_iff value).mpr isMet)
    obtain ⟨found, isFound⟩ :=
      Option.isSome_iff_exists.mp (List.find?_isSome.mpr ⟨value, isKept, passes⟩)
    obtain ⟨foundMet, foundPasses, foundLatest⟩ := latest found isFound
    have samePlace : met.idxOf value = met.idxOf found :=
      le_antisymm (foundLatest value isMet passes) (isLatest found foundMet foundPasses)
    rw [isFound, (List.idxOf_inj isMet).mp samePlace]

end LastValue

/-! ## Own variables by the name of their contract -/

namespace SourceUnit

variable {unit : SourceUnit} {name contract : String} {parents : List String}

/-- The own variables of the contracts of a name, in the order of their
declarations. -/
def ownVariablesOf (unit : SourceUnit) (contract : String) : List Variable :=
  (unit.ownVariables.filter (·.1 = contract)).map (·.2)

/-- The last own variable of a name in a contract. -/
def ownVariable? (unit : SourceUnit) (name contract : String) : Option Variable :=
  (unit.ownVariablesOf contract).reverse.find? (·.name = name)

/-- The last own variable of a name in the first contract of a list that has one. -/
def nearestVariable? (unit : SourceUnit) (name : String) (contracts : List String) :
    Option Variable :=
  contracts.findSome? (unit.ownVariable? name)

theorem ownVariablesFrom_append (registry : TypeRegistry) (before after : List UnitItem) :
    ownVariablesFrom registry (before ++ after) = ownVariablesFrom registry before ++
      ownVariablesFrom (before.foldl TypeRegistry.afterItem registry) after := by
  induction before generalizing registry with
  | nil => rfl
  | cons item rest ih => rw [List.cons_append, ownVariablesFrom, ih, ownVariablesFrom,
      List.foldl_cons, List.append_assoc]

theorem filter_ownVariablesFrom {items : List UnitItem} (absent : contract ∉ contractNames items)
    (registry : TypeRegistry) :
    (ownVariablesFrom registry items).filter (·.1 = contract) = [] := by
  induction items generalizing registry with
  | nil => rfl
  | cons item rest ih =>
      rw [ownVariablesFrom, List.filter_append]
      cases item with
      | contract definition =>
          rw [contractNames_cons_contract, List.mem_cons, not_or] at absent
          simp [UnitItem.contract?, List.filter_map, Function.comp_def, Ne.symm absent.1,
            ih absent.2]
      | structDef | enumDef | pragma | other => exact ih absent _

/-- Under different names the own variables of a name are those of the one contract. -/
theorem ownVariablesOf_of_place (distinct : (unit.contracts.map (·.name)).Nodup)
    {before after : List UnitItem} {definition : ContractDef}
    (place : unit.items = before ++ .contract definition :: after) :
    unit.ownVariablesOf definition.name = (ownMembers before definition).stateVariables := by
  have absent := not_mem_of_place distinct place
  have notBefore : definition.name ∉ contractNames before := fun member =>
    absent.2 _ member List.mem_cons_self
  rw [ownVariablesOf, ownVariables, place, ownVariablesFrom_append, List.filter_append,
    filter_ownVariablesFrom notBefore, ownVariablesFrom, List.filter_append,
    filter_ownVariablesFrom absent.1]
  simp [UnitItem.contract?, List.filter_map, Function.comp_def, ownMembers,
    TypeRegistry.afterItems]

theorem ownVariablesOf_eq_nil (undefined : contract ∉ unit.contracts.map (·.name)) :
    unit.ownVariablesOf contract = [] := by
  rw [ownVariablesOf, ownVariables, filter_ownVariablesFrom undefined, List.map_nil]

theorem mem_ownVariablesOf_iff (distinct : (unit.contracts.map (·.name)).Nodup)
    {declared : Variable} :
    declared ∈ unit.ownVariablesOf contract ↔ unit.Declares contract declared := by
  constructor
  · intro isOwn
    by_cases defined : contract ∈ unit.contracts.map (·.name)
    · obtain ⟨definition, isContract, rfl⟩ := List.mem_map.mp defined
      obtain ⟨before, after, place⟩ := exists_place_of_mem isContract
      rw [ownVariablesOf_of_place distinct place] at isOwn
      exact declares_of_place place isOwn
    · rw [ownVariablesOf_eq_nil defined] at isOwn
      cases isOwn
  · rintro ⟨definition, -, rfl, before, after, place, declares⟩
    rw [ownVariablesOf_of_place distinct place]
    exact OwnMembers.mem_stateVariables_ofContract.mpr declares

theorem ownVariable?_eq_none_iff (distinct : (unit.contracts.map (·.name)).Nodup) :
    unit.ownVariable? name contract = none ↔
      ∀ declared, unit.Declares contract declared → declared.name ≠ name := by
  simp [ownVariable?, mem_ownVariablesOf_iff distinct]

theorem nearestVariable?_eq_none_iff (distinct : (unit.contracts.map (·.name)).Nodup)
    {contracts : List String} :
    unit.nearestVariable? name contracts = none ↔
      ∀ contract ∈ contracts, ∀ declared, unit.Declares contract declared →
        declared.name ≠ name := by
  simp [nearestVariable?, ownVariable?_eq_none_iff distinct]

theorem declares_of_nearestVariable? (distinct : (unit.contracts.map (·.name)).Nodup)
    {contracts : List String} {declared : Variable}
    (nearest : unit.nearestVariable? name contracts = some declared) :
    declared.name = name ∧ ∃ contract ∈ contracts, unit.Declares contract declared := by
  obtain ⟨contract, member, found⟩ := List.exists_of_findSome?_eq_some nearest
  have named := List.find?_some found
  have isOwn := List.mem_reverse.mp (List.mem_of_find?_eq_some found)
  exact ⟨by simpa using named, contract, member, (mem_ownVariablesOf_iff distinct).mp isOwn⟩

/-! ## The lookup in an entry -/

/-- What the ancestors of a contract list in the end, nearest ancestor first. -/
def listedBy (unit : SourceUnit) (parents : List String) : List Variable :=
  listedByAncestors unit.aggregation.details (.ok parents)

/-- How a state variable of a name is looked up in the entry of a contract. -/
structure LooksUp (unit : SourceUnit) (contract : String) (parents : List String)
    (detail : ContractDetail) (name : String) : Prop where
  /-- The last own variable goes first. -/
  own : ∀ declared, unit.ownVariable? name contract = some declared →
    detail.stateVariable? name = some declared
  /-- Without one it is the inherited variable that is met latest. -/
  inherited : unit.ownVariable? name contract = none → ∀ declared,
    (detail.stateVariable? name = some declared ↔
      declared ∈ unit.listedBy parents ∧ declared.name = name ∧
        ∀ other ∈ unit.listedBy parents, other.name = name →
          (unit.listedBy parents).idxOf other ≤ (unit.listedBy parents).idxOf declared)
  /-- Nothing is found exactly if neither the contract nor an ancestor declares it. -/
  none_iff : detail.stateVariable? name = none ↔
    ∀ declaring ∈ contract :: parents, ∀ declared, unit.Declares declaring declared →
      declared.name ≠ name
  /-- The order of the ancestors is followed exactly if nothing of the name is met
  behind the variable of the nearest ancestor that declares one. -/
  nearest_iff : detail.stateVariable? name = unit.nearestVariable? name (contract :: parents) ↔
    (unit.ownVariable? name contract = none →
      ∀ nearest, unit.nearestVariable? name parents = some nearest →
        ∀ other ∈ unit.listedBy parents, other.name = name →
          (unit.listedBy parents).idxOf other ≤ (unit.listedBy parents).idxOf nearest)

section Inherited

variable {inherited : List Variable} (distinct : (unit.contracts.map (·.name)).Nodup)
  (inheritedIff : ∀ declared,
    declared ∈ inherited ↔ ∃ parent ∈ parents, unit.Declares parent declared)

include inheritedIff in
/-- No inherited variable is found exactly if no ancestor declares one. -/
theorem find?_inherited_eq_none_iff :
    inherited.reverse.find? (·.name = name) = none ↔
      ∀ parent ∈ parents, ∀ declared, unit.Declares parent declared → declared.name ≠ name := by
  simp only [List.find?_eq_none, List.mem_reverse, inheritedIff, decide_eq_true_eq]
  constructor
  · intro absent parent isParent declared declares
    exact absent declared ⟨parent, isParent, declares⟩
  · rintro absent declared ⟨parent, isParent, declares⟩
    exact absent parent isParent declared declares

variable (keeps : KeepsFirst (unit.listedBy parents) inherited)

include keeps in
/-- The inherited variable that is found is met latest. -/
theorem find?_inherited_eq_some_iff {declared : Variable} :
    inherited.reverse.find? (·.name = name) = some declared ↔
      declared ∈ unit.listedBy parents ∧ declared.name = name ∧
        ∀ other ∈ unit.listedBy parents, other.name = name →
          (unit.listedBy parents).idxOf other ≤ (unit.listedBy parents).idxOf declared := by
  simpa only [decide_eq_true_eq] using
    keeps.find?_reverse_eq_some_iff (fun other => decide (other.name = name)) declared

include distinct inheritedIff keeps in
/-- It is that of the nearest ancestor exactly if this one is met latest. -/
theorem find?_inherited_eq_nearest_iff :
    inherited.reverse.find? (·.name = name) = unit.nearestVariable? name parents ↔
      ∀ nearest, unit.nearestVariable? name parents = some nearest →
        ∀ other ∈ unit.listedBy parents, other.name = name →
          (unit.listedBy parents).idxOf other ≤ (unit.listedBy parents).idxOf nearest := by
  cases isNearest : unit.nearestVariable? name parents with
  | none =>
      have noneInherited := (find?_inherited_eq_none_iff inheritedIff).mpr
        ((nearestVariable?_eq_none_iff distinct).mp isNearest)
      simp [noneInherited]
  | some nearest =>
      obtain ⟨named, parent, isParent, declares⟩ :=
        declares_of_nearestVariable? distinct isNearest
      have listed : nearest ∈ unit.listedBy parents :=
        (keeps.mem_iff nearest).mp ((inheritedIff nearest).mpr ⟨parent, isParent, declares⟩)
      simp [find?_inherited_eq_some_iff keeps, listed, named]

end Inherited

/-- The variables of an entry are what the ancestors list, as it is met first, and
then the own ones. -/
theorem exists_stateVariables_eq (distinct : (unit.contracts.map (·.name)).Nodup)
    (ordered : unit.AncestorsFirst) {definition : ContractDef}
    (linearized : unit.inheritance.ancestorsOf definition.name = .ok parents)
    (isContract : definition ∈ unit.contracts) :
    ∃ detail inherited, unit.aggregation.details.get? definition.name = some detail ∧
      detail.parents = parents ∧
      detail.stateVariables = inherited ++ unit.ownVariablesOf definition.name ∧
      KeepsFirst (unit.listedBy parents) inherited ∧
      ∀ declared, declared ∈ inherited ↔ ∃ parent ∈ parents, unit.Declares parent declared := by
  obtain ⟨before, after, place⟩ := exists_place_of_mem isContract
  have entry := details_settled distinct ordered place
  rw [InheritanceTree.ancestorsOf_linearize, linearized] at entry
  have keeps : KeepsFirst (unit.listedBy parents)
      (inheritedVariables (knownDetails unit.aggregation.details parents)) := by
    rw [listedBy, ← flatMap_knownDetails, inheritedVariables]
    exact keepsFirst_eraseDups _
  refine ⟨_, _, entry, rfl, ?_, keeps,
    fun declared => mem_inheritedVariables_iff distinct ordered linearized⟩
  rw [ownVariablesOf_of_place distinct place]
  rfl

/-- Where names are different and ancestors come first, every name is looked up like
this in every entry. -/
theorem exists_detail_looksUp (distinct : (unit.contracts.map (·.name)).Nodup)
    (ordered : unit.AncestorsFirst) {definition : ContractDef}
    (isContract : definition ∈ unit.contracts)
    (linearized : unit.inheritance.linearize.ancestorsOf definition.name = .ok parents)
    (name : String) :
    ∃ detail, unit.aggregation.details.get? definition.name = some detail ∧
      detail.parents = parents ∧ unit.LooksUp definition.name parents detail name := by
  rw [InheritanceTree.ancestorsOf_linearize] at linearized
  obtain ⟨detail, inherited, found, parentsEq, split, keeps, inheritedIff⟩ :=
    exists_stateVariables_eq distinct ordered linearized isContract
  have lookup : detail.stateVariable? name =
      (unit.ownVariable? name definition.name).or
        (inherited.reverse.find? (·.name = name)) := by
    rw [ContractDetail.stateVariable?, split, List.reverse_append, List.find?_append]
    rfl
  have precedence : unit.nearestVariable? name (definition.name :: parents) =
      (unit.ownVariable? name definition.name).or (unit.nearestVariable? name parents) := by
    rw [nearestVariable?, List.findSome?_cons, nearestVariable?]
    cases unit.ownVariable? name definition.name <;> rfl
  refine ⟨detail, found, parentsEq, ?_, ?_, ?_, ?_⟩
  · intro declared isOwn
    rw [lookup, isOwn, Option.some_or]
  · intro noOwn declared
    rw [lookup, noOwn, Option.none_or, find?_inherited_eq_some_iff keeps]
  · rw [lookup, Option.or_eq_none_iff, ownVariable?_eq_none_iff distinct,
      find?_inherited_eq_none_iff inheritedIff, List.forall_mem_cons]
  · rw [lookup, precedence]
    cases unit.ownVariable? name definition.name with
    | some declared => simp
    | none =>
        rw [Option.none_or, Option.none_or,
          find?_inherited_eq_nearest_iff distinct inheritedIff keeps]
        simp

/-- Three fees: that of a base, that of the nearest ancestor, which derives from the
base, and that of another ancestor behind it. -/
def marketUnit : SourceUnit where
  items :=
    let fee (type : String) : Member :=
      .stateVariable ⟨"fee", some (.elementary type), none, .mutable, .absent⟩
    [.contract ⟨"Base", .contract, [], [fee "uint256"]⟩,
      .contract ⟨"Near", .contract, ["Base"], [fee "address"]⟩,
      .contract ⟨"Far", .contract, [], [fee "bool"]⟩,
      .contract ⟨"Market", .contract, ["Near", "Far"], []⟩]

theorem marketUnit_looksUp :
    (marketUnit.contracts.map (·.name)).Nodup ∧ marketUnit.AncestorsFirst ∧
    ∃ market ∈ marketUnit.contracts,
      marketUnit.inheritance.linearize.ancestorsOf market.name = .ok ["Near", "Base", "Far"] ∧
      ∃ detail, marketUnit.aggregation.details.get? market.name = some detail ∧
        detail.parents = ["Near", "Base", "Far"] ∧
        marketUnit.LooksUp market.name ["Near", "Base", "Far"] detail "fee" := by
  have distinct : (marketUnit.contracts.map (·.name)).Nodup := by decide +kernel
  have ordered : marketUnit.AncestorsFirst := ancestorsFirst_of_pairwise (by decide +kernel)
  have linearized : marketUnit.inheritance.linearize.ancestorsOf "Market" =
      .ok ["Near", "Base", "Far"] := by decide +kernel
  have isContract : marketUnit.contracts[3] ∈ marketUnit.contracts := List.getElem_mem _
  exact ⟨distinct, ordered, _, isContract, linearized,
    exists_detail_looksUp distinct ordered isContract linearized "fee"⟩

/-- The nearest ancestor declares a fee, and the lookup finds that of the farthest
one. -/
theorem marketUnit_skips_nearest :
    (marketUnit.contracts.map (·.name)).Nodup ∧ marketUnit.AncestorsFirst ∧
    marketUnit.inheritance.linearize.ancestorsOf "Market" = .ok ["Near", "Base", "Far"] ∧
    marketUnit.nearestVariable? "fee" ["Market", "Near", "Base", "Far"] =
      some ⟨"fee", .elementary "address"⟩ ∧
    (marketUnit.aggregation.details.get? "Market").map (·.stateVariable? "fee") =
      some (some ⟨"fee", .elementary "bool"⟩) :=
  ⟨by decide +kernel, ancestorsFirst_of_pairwise (by decide +kernel), by decide +kernel,
    by decide +kernel, by decide +kernel⟩

end SourceUnit

end SolidityModel
