import Mathlib.Data.List.Nodup
import SolidityModel.Proofs.Contract.Entry
import SolidityModel.Proofs.Inheritance.Locality

/-!
# Base-first order of variables

The variables that a contract inherits are collected from the nearest ancestor on.
Each ancestor brings a list of its own, and of equal variables the first one stays.
A variable of a derived contract therefore comes in with the first ancestor that is
or inherits from this contract, and the list of this ancestor holds the variables
of the bases in front.  So the bases come first all the way
(`SourceUnit.stateVariables_base_first`), although the ancestors themselves are in
the opposite order.
-/

namespace SolidityModel

/-! ## One group of values in front of another -/

section Lists

variable {α β : Type} {first second : Set α} {list rest : List α}

/-- The values of the first set stand in front of those of the second: at some
point in the list all of the former are behind and all of the latter are ahead. -/
def StandsBefore (first second : Set α) (list : List α) : Prop :=
  ∃ front back, list = front ++ back ∧
    (∀ value ∈ first, value ∈ front ∧ value ∉ back) ∧
    (∀ value ∈ second, value ∈ back ∧ value ∉ front)

/-- The values of the first set are all met in front of those of the second, but
may be met again. -/
def MetBefore (first second : Set α) (list : List α) : Prop :=
  ∃ front back, list = front ++ back ∧ (∀ value ∈ first, value ∈ front) ∧
    (∀ value ∈ second, value ∈ back ∧ value ∉ front)

theorem StandsBefore.metBefore (stands : StandsBefore first second list) :
    MetBefore first second list := by
  rcases stands with ⟨front, back, split, inFront, inBack⟩
  exact ⟨front, back, split, fun value isFirst => (inFront value isFirst).1, inBack⟩

/-- What is added behind changes nothing as long as it repeats no value of the
first set. -/
theorem StandsBefore.append (stands : StandsBefore first second list)
    (absent : ∀ value ∈ first, value ∉ rest) : StandsBefore first second (list ++ rest) := by
  rcases stands with ⟨front, back, rfl, inFront, inBack⟩
  refine ⟨front, back ++ rest, List.append_assoc front back rest, ?_, ?_⟩
  · intro value isFirst
    rw [List.mem_append, not_or]
    exact ⟨(inFront value isFirst).1, (inFront value isFirst).2, absent value isFirst⟩
  · intro value isSecond
    exact ⟨List.mem_append_left rest (inBack value isSecond).1, (inBack value isSecond).2⟩

/-- Where only first occurrences stay, what is met before stands before. -/
theorem MetBefore.eraseDups [BEq α] [LawfulBEq α] (met : MetBefore first second list) :
    StandsBefore first second list.eraseDups := by
  rcases met with ⟨front, back, rfl, inFront, inBack⟩
  refine ⟨front.eraseDups, (back.removeAll front).eraseDups, List.eraseDups_append, ?_, ?_⟩
  · intro value isFirst
    have member := inFront value isFirst
    simp [List.mem_eraseDups, List.removeAll, member]
  · intro value isSecond
    have member := inBack value isSecond
    simp [List.mem_eraseDups, List.removeAll, member]

/-- In a row of lists it is the first list with values of the second set that
counts. -/
theorem MetBefore.flatMap {earlier later : List β} {block : β} {listOf : β → List α}
    (met : MetBefore first second (listOf block))
    (absent : ∀ other ∈ earlier, ∀ value ∈ second, value ∉ listOf other) :
    MetBefore first second ((earlier ++ block :: later).flatMap listOf) := by
  rcases met with ⟨front, back, split, inFront, inBack⟩
  refine ⟨earlier.flatMap listOf ++ front, back ++ later.flatMap listOf, ?_, ?_, ?_⟩
  · rw [List.flatMap_append, List.flatMap_cons, split]
    simp only [List.append_assoc]
  · intro value isFirst
    exact List.mem_append_right _ (inFront value isFirst)
  · intro value isSecond
    rcases inBack value isSecond with ⟨isBehind, notFront⟩
    refine ⟨List.mem_append_left _ isBehind, ?_⟩
    rw [List.mem_append, List.mem_flatMap, not_or, not_exists]
    refine ⟨?_, notFront⟩
    intro other both
    exact absent other both.1 value isSecond both.2

/-- What some value of a list has, a first one has. -/
theorem exists_first_of_mem (property : α → Prop) (found : ∃ value ∈ list, property value) :
    ∃ earlier value later, list = earlier ++ value :: later ∧ property value ∧
      ∀ other ∈ earlier, ¬property other := by
  induction list with
  | nil => simp at found
  | cons head tail ih =>
      by_cases here : property head
      · exact ⟨[], head, tail, rfl, here, by simp⟩
      · rw [List.exists_mem_cons_iff] at found
        rcases ih (found.resolve_left here) with ⟨earlier, value, later, rfl, holds, noneEarlier⟩
        exact ⟨head :: earlier, value, later, rfl, holds,
          List.forall_mem_cons.mpr ⟨here, noneEarlier⟩⟩

end Lists

/-! ## All own variables of a unit -/

/-- The own variables of the contracts among items that follow on given types, each
with the name of its contract. -/
def ownVariablesFrom (registry : TypeRegistry) : List UnitItem → List (String × Variable)
  | [] => []
  | item :: rest =>
      item.contract?.toList.flatMap (fun contract =>
        (OwnMembers.ofContract registry contract).stateVariables.map (contract.name, ·)) ++
      ownVariablesFrom (registry.afterItem item) rest

namespace SourceUnit

variable {unit : SourceUnit} {name other : String} {declared : Variable}
  {detail : ContractDetail} {parents : List String}

/-- The own variables of all contracts in the order of their declarations, each with
the name of its contract. -/
def ownVariables (unit : SourceUnit) : List (String × Variable) :=
  ownVariablesFrom TypeRegistry.empty unit.items

theorem mem_ownVariablesFrom {registry : TypeRegistry} {before after : List UnitItem}
    {contract : ContractDef}
    (declares : DeclaresVariable (before.foldl TypeRegistry.afterItem registry) contract.name
      contract.members declared) :
    (contract.name, declared) ∈
      ownVariablesFrom registry (before ++ .contract contract :: after) := by
  induction before generalizing registry with
  | nil =>
      have isOwn := OwnMembers.mem_stateVariables_ofContract.mpr declares
      apply List.mem_append_left
      simpa [UnitItem.contract?] using isOwn
  | cons item rest ih => exact List.mem_append_right _ (ih declares)

theorem mem_ownVariables_of_declares (declares : unit.Declares name declared) :
    (name, declared) ∈ unit.ownVariables := by
  rcases declares with ⟨contract, -, rfl, before, after, place, isOwn⟩
  rw [ownVariables, place]
  exact mem_ownVariablesFrom isOwn

/-- If all own variables are different, no two contracts declare the same one. -/
theorem eq_of_declares (separate : (unit.ownVariables.map (·.2)).Nodup)
    (declares : unit.Declares name declared) (otherDeclares : unit.Declares other declared) :
    name = other := by
  have samePair := List.inj_on_of_nodup_map separate (mem_ownVariables_of_declares declares)
    (mem_ownVariables_of_declares otherDeclares) rfl
  exact congrArg Prod.fst samePair

/-! ## What an entry holds -/

/-- The own variables of the contracts of a name. -/
def variablesOf (unit : SourceUnit) (name : String) : Set Variable :=
  {declared | unit.Declares name declared}

theorem exists_details_of_declares (declares : unit.Declares name declared) :
    ∃ detail, unit.aggregation.details.get? name = some detail := by
  rcases declares with ⟨contract, isContract, rfl, -⟩
  exact exists_details_of_mem isContract

theorem exists_details_of_inherits (inherits : unit.inheritance.Inherits name other) :
    ∃ detail, unit.aggregation.details.get? name = some detail := by
  rcases InheritanceTree.inherits_iff.mp inherits with ⟨base, isBase, -⟩
  rcases InheritanceTree.exists_contract_of_extends isBase with ⟨contract, isContract, rfl⟩
  exact exists_details_of_mem isContract

theorem mem_stateVariables_iff (distinct : (unit.contracts.map (·.name)).Nodup)
    (ordered : unit.AncestorsFirst) (found : unit.aggregation.details.get? name = some detail)
    (linearized : unit.inheritance.ancestorsOf name = .ok parents) :
    declared ∈ detail.stateVariables ↔ ∃ other ∈ name :: parents, unit.Declares other declared :=
  InheritanceTree.gathered_iff exists_details_of_declares
    (mem_stateVariables_iff_step distinct ordered) found linearized declared

/-- What is inherited is what the ancestors declare. -/
theorem mem_inheritedVariables_iff (distinct : (unit.contracts.map (·.name)).Nodup)
    (ordered : unit.AncestorsFirst) (linearized : unit.inheritance.ancestorsOf name = .ok parents) :
    declared ∈ inheritedVariables (knownDetails unit.aggregation.details parents) ↔
      ∃ parent ∈ parents, unit.Declares parent declared := by
  simp only [inheritedVariables, knownDetails, List.mem_eraseDups, List.mem_flatMap,
    List.mem_filterMap]
  constructor
  · intro inBases
    rcases inBases with ⟨base, ⟨parent, isParent, found⟩, inBase⟩
    rcases InheritanceTree.exists_ancestorsOf_of_mem linearized isParent with
      ⟨further, parentLinearized, kept⟩
    rcases (mem_stateVariables_iff distinct ordered found parentLinearized).mp inBase with
      ⟨declaring, member, declares⟩
    exact ⟨declaring, kept.subset member, declares⟩
  · intro inParents
    rcases inParents with ⟨parent, isParent, declares⟩
    rcases exists_details_of_declares declares with ⟨base, found⟩
    rcases InheritanceTree.exists_ancestorsOf_of_mem linearized isParent with
      ⟨further, parentLinearized, -⟩
    exact ⟨base, ⟨parent, isParent, found⟩,
      (mem_stateVariables_iff distinct ordered found parentLinearized).mpr
        ⟨parent, List.mem_cons_self, declares⟩⟩

/-! ## The order of an entry -/

section Order

variable (distinct : (unit.contracts.map (·.name)).Nodup) (ordered : unit.AncestorsFirst)
  (separate : (unit.ownVariables.map (·.2)).Nodup)

include distinct ordered separate

/-- What a contract declares itself stands behind all that it inherits. -/
theorem standsBefore_own (found : unit.aggregation.details.get? name = some detail)
    (linearized : unit.inheritance.ancestorsOf name = .ok parents) {base : String}
    (isParent : base ∈ parents) :
    StandsBefore (unit.variablesOf base) (unit.variablesOf name) detail.stateVariables := by
  have notSelf : name ∉ parents := by
    have derived := InheritanceTree.ancestorsOf_eq_ok_iff.mp linearized
    intro member
    exact derived.not_inherits_self ((derived.mem_ancestors_iff name).mp member)
  have listed : ∀ declared, unit.Declares name declared → declared ∈ detail.stateVariables :=
    fun declared declares => (mem_stateVariables_iff distinct ordered found linearized).mpr
      ⟨name, List.mem_cons_self, declares⟩
  rcases exists_place_of_details distinct ordered found linearized with
    ⟨before, contract, after, place, rfl, rfl⟩
  refine ⟨inheritedVariables (knownDetails unit.aggregation.details parents),
    (ownMembers before contract).stateVariables, rfl, ?_, ?_⟩
  · intro declared declares
    refine ⟨(mem_inheritedVariables_iff distinct ordered linearized).mpr
      ⟨base, isParent, declares⟩, ?_⟩
    intro isOwn
    have same := eq_of_declares separate declares (declares_of_place place isOwn)
    exact notSelf (same ▸ isParent)
  · intro declared declares
    have notInherited : declared ∉
        inheritedVariables (knownDetails unit.aggregation.details parents) := by
      intro member
      rcases (mem_inheritedVariables_iff distinct ordered linearized).mp member with
        ⟨parent, parentMember, parentDeclares⟩
      exact notSelf (eq_of_declares separate parentDeclares declares ▸ parentMember)
    exact ⟨(List.mem_append.mp (listed declared declares)).resolve_left notInherited,
      notInherited⟩

/-- What two ancestors declare is met in the right order, if the entries of the
ancestors list their variables in this order. -/
theorem metBefore_inherited (linearized : unit.inheritance.ancestorsOf name = .ok parents)
    {derived base : String} (isParent : derived ∈ parents)
    (inherits : unit.inheritance.Inherits derived base)
    (sorted : ∀ parent ∈ parents, unit.inheritance.Reaches parent derived →
      ∀ entry, unit.aggregation.details.get? parent = some entry →
      StandsBefore (unit.variablesOf base) (unit.variablesOf derived) entry.stateVariables) :
    MetBefore (unit.variablesOf base) (unit.variablesOf derived)
      ((knownDetails unit.aggregation.details parents).flatMap (·.stateVariables)) := by
  -- The derived contract comes in with the first parent that reaches it.
  rcases exists_first_of_mem (unit.inheritance.Reaches · derived) ⟨derived, isParent, .refl⟩ with
    ⟨earlier, nearest, later, split, reaches, noneEarlier⟩
  have isNearest : nearest ∈ parents := by
    rw [split]
    exact List.mem_append_right _ List.mem_cons_self
  have nearestInherits : unit.inheritance.Inherits nearest base := .trans_right reaches inherits
  rcases exists_details_of_inherits nearestInherits with ⟨entry, nearestFound⟩
  have known : knownDetails unit.aggregation.details parents =
      knownDetails unit.aggregation.details earlier ++
        entry :: knownDetails unit.aggregation.details later := by
    simp only [knownDetails, split, List.filterMap_append, List.filterMap_cons, nearestFound]
  rw [known]
  apply MetBefore.flatMap (sorted nearest isNearest reaches entry nearestFound).metBefore
  intro other isEarlier declared declares inOther
  rcases List.mem_filterMap.mp isEarlier with ⟨parent, parentMember, parentFound⟩
  have parentIsParent : parent ∈ parents := by
    rw [split]
    exact List.mem_append_left _ parentMember
  rcases InheritanceTree.exists_ancestorsOf_of_mem linearized parentIsParent with
    ⟨further, parentLinearized, -⟩
  rcases (mem_stateVariables_iff distinct ordered parentFound parentLinearized).mp inOther with
    ⟨declaring, member, declaringDeclares⟩
  rw [eq_of_declares separate declaringDeclares declares] at member
  have reachesDerived :=
    ((InheritanceTree.ancestorsOf_eq_ok_iff.mp parentLinearized).mem_iff derived).mp member
  exact noneEarlier parent parentMember reachesDerived

/-- In the entry of a contract the variables of a base stand in front of those of
every contract that inherits from the base. -/
theorem standsBefore_of_inherits (found : unit.aggregation.details.get? name = some detail)
    (linearized : unit.inheritance.ancestorsOf name = .ok parents) {derived base : String}
    (reaches : unit.inheritance.Reaches name derived)
    (inherits : unit.inheritance.Inherits derived base) :
    StandsBefore (unit.variablesOf base) (unit.variablesOf derived) detail.stateVariables := by
  induction name using InheritanceTree.ancestors_induction unit.inheritance
    generalizing detail parents with
  | step name ih =>
      have derivation := InheritanceTree.ancestorsOf_eq_ok_iff.mp linearized
      rcases InheritanceTree.reaches_iff_eq_or_inherits.mp reaches with rfl | further
      · have isParent := (derivation.mem_ancestors_iff base).mpr inherits
        exact standsBefore_own distinct ordered separate found linearized isParent
      · have isParent := (derivation.mem_ancestors_iff derived).mpr further
        have inheritedSorted : StandsBefore (unit.variablesOf base) (unit.variablesOf derived)
            (inheritedVariables (knownDetails unit.aggregation.details parents)) := by
          apply MetBefore.eraseDups
          apply metBefore_inherited distinct ordered separate linearized isParent inherits
          intro parent parentMember parentReaches entry entryFound
          rcases InheritanceTree.exists_ancestorsOf_of_mem linearized parentMember with
            ⟨others, parentLinearized, -⟩
          exact ih parents linearized parent parentMember entryFound parentLinearized
            parentReaches
        rcases exists_place_of_details distinct ordered found linearized with
          ⟨before, contract, after, place, rfl, rfl⟩
        apply inheritedSorted.append
        -- The base is no variable of the contract itself, which would else be its own ancestor.
        intro declared declares isOwn
        have same := eq_of_declares separate declares (declares_of_place place isOwn)
        exact derivation.not_inherits_self (same ▸ further.trans inherits)

end Order

/-- Where names are different, ancestors come first and no variable is declared
twice, every entry lists its variables base-first: of two contracts that it gathers
from, one of which is a parent of the other, the variables of the parent stand in
front. -/
theorem stateVariables_base_first (distinct : (unit.contracts.map (·.name)).Nodup)
    (ordered : unit.AncestorsFirst) (separate : (unit.ownVariables.map (·.2)).Nodup)
    {contract : ContractDef} (isContract : contract ∈ unit.contracts)
    (linearized : unit.inheritance.linearize.ancestorsOf contract.name = .ok parents) :
    ∃ detail, unit.aggregation.details.get? contract.name = some detail ∧
      detail.parents = parents ∧
      ∀ derived ∈ contract.name :: parents, ∀ entry,
        unit.aggregation.details.get? derived = some entry → ∀ base ∈ entry.parents,
          StandsBefore (unit.variablesOf base) (unit.variablesOf derived)
            detail.stateVariables := by
  rcases exists_details_of_mem isContract with ⟨detail, found⟩
  refine ⟨detail, found, parents_of_details found linearized, ?_⟩
  rw [InheritanceTree.ancestorsOf_linearize] at linearized
  have derivation := InheritanceTree.ancestorsOf_eq_ok_iff.mp linearized
  intro derived member entry entryFound base isBase
  have reaches := (derivation.mem_iff derived).mp member
  rcases derivation.exists_sublist reaches with ⟨order, derivedOrder, -⟩
  rcases derivedOrder.exists_eq_cons with ⟨further, rfl⟩
  have derivedLinearized := InheritanceTree.ancestorsOf_eq_ok_iff.mpr derivedOrder
  rw [← InheritanceTree.ancestorsOf_linearize] at derivedLinearized
  rw [parents_of_details entryFound derivedLinearized] at isBase
  have inherits := (derivedOrder.mem_ancestors_iff base).mp isBase
  exact standsBefore_of_inherits distinct ordered separate found linearized reaches inherits

/-- In the diamond the variable of the top comes in with the left side, although the
top is the last ancestor that the unit defines. -/
theorem diamondUnit_base_first :
    (diamondUnit.contracts.map (·.name)).Nodup ∧ diamondUnit.AncestorsFirst ∧
    (diamondUnit.ownVariables.map (·.2)).Nodup ∧
    ((diamondUnit.aggregation.details.get? "Bottom").map fun detail =>
      detail.stateVariables.map (·.name)) = some ["owner", "corner", "corner"] ∧
    ∃ bottom ∈ diamondUnit.contracts,
      diamondUnit.inheritance.linearize.ancestorsOf bottom.name =
        .ok ["Left", "Right", "Top", "Lost"] ∧
      ∃ detail, diamondUnit.aggregation.details.get? bottom.name = some detail ∧
        detail.parents = ["Left", "Right", "Top", "Lost"] ∧
        ∀ derived ∈ bottom.name :: ["Left", "Right", "Top", "Lost"], ∀ entry,
          diamondUnit.aggregation.details.get? derived = some entry → ∀ base ∈ entry.parents,
            StandsBefore (diamondUnit.variablesOf base) (diamondUnit.variablesOf derived)
              detail.stateVariables := by
  have distinct : (diamondUnit.contracts.map (·.name)).Nodup := by decide +kernel
  have ordered : diamondUnit.AncestorsFirst := ancestorsFirst_of_pairwise (by decide +kernel)
  have separate : (diamondUnit.ownVariables.map (·.2)).Nodup := by decide +kernel
  have linearized : diamondUnit.inheritance.linearize.ancestorsOf "Bottom" =
      .ok ["Left", "Right", "Top", "Lost"] := by decide +kernel
  have isContract : diamondUnit.contracts[3] ∈ diamondUnit.contracts := List.getElem_mem _
  exact ⟨distinct, ordered, separate, by decide +kernel, _, isContract, linearized,
    stateVariables_base_first distinct ordered separate isContract linearized⟩

end SourceUnit

end SolidityModel
