import SolidityModel.Proofs.Contract.Aggregation

/-!
# What a contract inherits

An aggregation never walks up the hierarchy.  It unites the entries of the
ancestors of a contract, each of which has united those of its own.  That nothing
is lost on the way, and nothing comes in from elsewhere, rests on the order of the
ancestors: the ancestors of an ancestor are ancestors (`SourceUnit.Gathers`).
-/

namespace SolidityModel

/-! ## Own variables -/

/-- Among the members of a contract is the declaration of a state variable that is
no constant and has a type at its place. -/
def DeclaresVariable (registry : TypeRegistry) (contract : String) (members : List Member)
    (declared : Variable) : Prop :=
  ∃ earlier decl later, members = earlier ++ .stateVariable decl :: later ∧
    ConstantVar.ofDecl? contract decl = none ∧
    (earlier.foldl TypeRegistry.afterMember registry).resolveVariable? decl = some declared

/-- A contract of the unit declares a variable, whose type is resolved with the
definitions in front of the declaration. -/
def SourceUnit.OwnVariable (unit : SourceUnit) (contract : ContractDef)
    (declared : Variable) : Prop :=
  ∃ before after, unit.items = before ++ .contract contract :: after ∧
    DeclaresVariable (TypeRegistry.afterItems before) contract.name contract.members declared

theorem declaresVariable_cons {registry : TypeRegistry} {contract : String} {member : Member}
    {members : List Member} {declared : Variable} :
    DeclaresVariable registry contract (member :: members) declared ↔
      (∃ decl, member = .stateVariable decl ∧ ConstantVar.ofDecl? contract decl = none ∧
        registry.resolveVariable? decl = some declared) ∨
      DeclaresVariable (registry.afterMember member) contract members declared := by
  constructor
  · rintro ⟨earlier, decl, later, split, notConstant, resolved⟩
    cases earlier with
    | nil =>
        cases split
        exact .inl ⟨decl, rfl, notConstant, resolved⟩
    | cons first rest =>
        cases split
        exact .inr ⟨rest, decl, later, rfl, notConstant, resolved⟩
  · rintro (⟨decl, rfl, notConstant, resolved⟩ |
      ⟨earlier, decl, later, rfl, notConstant, resolved⟩)
    · exact ⟨[], decl, members, rfl, notConstant, resolved⟩
    · exact ⟨member :: earlier, decl, later, rfl, notConstant, resolved⟩

namespace OwnMembers

theorem mem_stateVariables_add {contract : String} {own : OwnMembers} {member : Member}
    {declared : Variable} :
    declared ∈ (own.add contract member).stateVariables ↔
      declared ∈ own.stateVariables ∨
      ∃ decl, member = .stateVariable decl ∧ ConstantVar.ofDecl? contract decl = none ∧
        own.registry.resolveVariable? decl = some declared := by
  cases member with
  | stateVariable decl =>
      cases constant : ConstantVar.ofDecl? contract decl <;>
        simp [add, addVariable, constant]
  | structDef | enumDef | callable | other => simp [add]

theorem mem_stateVariables_foldl_add {contract : String} {members : List Member}
    {own : OwnMembers} {declared : Variable} :
    declared ∈ (members.foldl (add contract) own).stateVariables ↔
      declared ∈ own.stateVariables ∨
      DeclaresVariable own.registry contract members declared := by
  induction members generalizing own with
  | nil => simp [DeclaresVariable]
  | cons member rest ih =>
      rw [List.foldl_cons, ih, mem_stateVariables_add, registry_add, declaresVariable_cons,
        or_assoc]

/-- The own variables of a contract are those that its members declare. -/
theorem mem_stateVariables_ofContract {registry : TypeRegistry} {contract : ContractDef}
    {declared : Variable} :
    declared ∈ (ofContract registry contract).stateVariables ↔
      DeclaresVariable registry contract.name contract.members declared := by
  rw [ofContract, mem_stateVariables_foldl_add]
  simp [start]

end OwnMembers

/-! ## One step of inheritance -/

namespace ContractDetail

variable {contract : ContractDef} {own : OwnMembers}
  {ancestors : Except InheritanceError (List String)} {parents : List String}
  {details : NameMap ContractDetail}

theorem mem_stateVariables_ofContract {declared : Variable} :
    declared ∈ (ofContract contract own ancestors details).stateVariables ↔
      declared ∈ own.stateVariables ∨
      ∃ parent ∈ ancestors.toOption.getD [], ∃ base, details.get? parent = some base ∧
        declared ∈ base.stateVariables := by
  simp only [ofContract, inheritedVariables, knownDetails, List.mem_append, List.mem_eraseDups,
    List.mem_flatMap, List.mem_filterMap]
  grind

theorem mem_foldl_addAll {bases : List ContractDetail} {names : NameSet} {name : String} :
    name ∈ bases.foldl (fun names base => names.addAll base.functionNames.toList) names ↔
      name ∈ names ∨ ∃ base ∈ bases, name ∈ base.functionNames := by
  induction bases generalizing names with
  | nil => simp
  | cons base rest ih =>
      rw [List.foldl_cons, ih, NameSet.mem_addAll, NameSet.mem_toList, List.exists_mem_cons_iff,
        or_assoc]

theorem mem_functionNames_ofContract {name : String} :
    name ∈ (ofContract contract own ancestors details).functionNames ↔
      name ∈ own.functionNames ∨
      ∃ parent ∈ ancestors.toOption.getD [], ∃ base, details.get? parent = some base ∧
        name ∈ base.functionNames := by
  simp only [ofContract, mem_foldl_addAll, NameSet.mem_ofList, knownDetails, List.mem_filterMap]
  grind

/-- The functions whose definitions can be looked up are the own functions. -/
theorem mem_functionBodies_ofContract {name : String} :
    name ∈ (ofContract contract own ancestors details).functionBodies.names ↔
      name ∈ own.functionNames := by
  rw [functionBodies, NameMap.mem_names_ofList]
  simp [ofContract, OwnMembers.functionNames, FunctionRecord.isFunction, FunctionRecord.name]

end ContractDetail

/-! ## Any number of steps -/

namespace InheritanceTree

/-- If each entry gathers what its contract owns and what the entries of its
ancestors gather, then it gathers what these contracts own.  An ancestor has fewer
ancestors, and all of them are ancestors of the contract. -/
theorem gathered_iff {α : Type} {tree : InheritanceTree} {details : NameMap ContractDetail}
    {gathered : ContractDetail → α → Prop} {own : String → α → Prop}
    (entered : ∀ {name : String} {value : α}, own name value →
      ∃ detail, details.get? name = some detail)
    (step : ∀ {name : String} {detail : ContractDetail} {parents : List String},
      details.get? name = some detail → tree.ancestorsOf name = .ok parents → ∀ value,
      (gathered detail value ↔ own name value ∨
        ∃ parent ∈ parents, ∃ base, details.get? parent = some base ∧ gathered base value))
    {name : String} {detail : ContractDetail} {parents : List String}
    (found : details.get? name = some detail) (linearized : tree.ancestorsOf name = .ok parents)
    (value : α) : gathered detail value ↔ ∃ other ∈ name :: parents, own other value := by
  induction name using ancestors_induction tree generalizing detail parents value with
  | step name ih =>
      rw [step found linearized value, List.exists_mem_cons_iff]
      apply or_congr_right
      constructor
      · rintro ⟨parent, member, base, baseFound, inBase⟩
        rcases exists_ancestorsOf_of_mem linearized member with ⟨further, furtherEq, kept⟩
        rcases (ih parents linearized parent member baseFound furtherEq value).mp inBase with
          ⟨other, otherMember, isOwn⟩
        exact ⟨other, kept.subset otherMember, isOwn⟩
      · rintro ⟨other, member, isOwn⟩
        rcases entered isOwn with ⟨base, baseFound⟩
        rcases exists_ancestorsOf_of_mem linearized member with ⟨further, furtherEq, -⟩
        exact ⟨other, member, base, baseFound, (step baseFound furtherEq value).mpr (.inl isOwn)⟩

end InheritanceTree

namespace SourceUnit

variable {unit : SourceUnit} {name : String} {detail : ContractDetail} {parents : List String}

/-- A contract of the unit that goes by a name declares a variable. -/
def Declares (unit : SourceUnit) (name : String) (declared : Variable) : Prop :=
  ∃ contract ∈ unit.contracts, contract.name = name ∧ unit.OwnVariable contract declared

/-- The entry of a name has a function of its own. -/
def Implements (unit : SourceUnit) (name function : String) : Prop :=
  ∃ detail, unit.aggregation.details.get? name = some detail ∧
    function ∈ detail.functionBodies.names

theorem declares_of_place {before after : List UnitItem} {contract : ContractDef}
    (place : unit.items = before ++ .contract contract :: after) {declared : Variable}
    (isOwn : declared ∈
      (OwnMembers.ofContract (TypeRegistry.afterItems before) contract).stateVariables) :
    unit.Declares contract.name declared :=
  ⟨contract, mem_contracts_of_place place, rfl, before, after, place,
    OwnMembers.mem_stateVariables_ofContract.mp isOwn⟩

theorem exists_place_of_details (distinct : (unit.contracts.map (·.name)).Nodup)
    (ordered : unit.AncestorsFirst) (found : unit.aggregation.details.get? name = some detail)
    (linearized : unit.inheritance.ancestorsOf name = .ok parents) :
    ∃ before contract after, unit.items = before ++ .contract contract :: after ∧
      contract.name = name ∧
      detail = ContractDetail.ofContract contract
        (OwnMembers.ofContract (TypeRegistry.afterItems before) contract) (.ok parents)
        unit.aggregation.details := by
  rcases exists_contract_of_details found with ⟨contract, member, rfl⟩
  rcases exists_place_of_mem member with ⟨before, after, place⟩
  have entry := details_settled distinct ordered place
  rw [found, InheritanceTree.ancestorsOf_linearize, linearized] at entry
  exact ⟨before, contract, after, place, rfl, Option.some.inj entry⟩

/-- The variables of an entry are declared by the contract or stand in the entries
of its ancestors. -/
theorem mem_stateVariables_iff_step (distinct : (unit.contracts.map (·.name)).Nodup)
    (ordered : unit.AncestorsFirst) (found : unit.aggregation.details.get? name = some detail)
    (linearized : unit.inheritance.ancestorsOf name = .ok parents) (declared : Variable) :
    declared ∈ detail.stateVariables ↔ unit.Declares name declared ∨
      ∃ parent ∈ parents, ∃ base, unit.aggregation.details.get? parent = some base ∧
        declared ∈ base.stateVariables := by
  rcases exists_place_of_details distinct ordered found linearized with
    ⟨before, contract, after, place, rfl, rfl⟩
  constructor
  · intro member
    rcases ContractDetail.mem_stateVariables_ofContract.mp member with isOwn | inherited
    · exact .inl (declares_of_place place isOwn)
    · exact .inr inherited
  · rintro (⟨declaring, -, sameName, others, further, declaringPlace, declares⟩ | inherited)
    · have entry := details_settled distinct ordered declaringPlace
      rw [sameName, found] at entry
      rw [Option.some.inj entry]
      exact ContractDetail.mem_stateVariables_ofContract.mpr
        (.inl (OwnMembers.mem_stateVariables_ofContract.mpr declares))
    · exact ContractDetail.mem_stateVariables_ofContract.mpr (.inr inherited)

/-- The functions of an entry are its own or stand in the entries of its
ancestors. -/
theorem mem_functionNames_iff_step (distinct : (unit.contracts.map (·.name)).Nodup)
    (ordered : unit.AncestorsFirst) (found : unit.aggregation.details.get? name = some detail)
    (linearized : unit.inheritance.ancestorsOf name = .ok parents) (function : String) :
    function ∈ detail.functionNames ↔ unit.Implements name function ∨
      ∃ parent ∈ parents, ∃ base, unit.aggregation.details.get? parent = some base ∧
        function ∈ base.functionNames := by
  have implements : unit.Implements name function ↔ function ∈ detail.functionBodies.names := by
    simp [Implements, found]
  rcases exists_place_of_details distinct ordered found linearized with
    ⟨before, contract, after, place, rfl, rfl⟩
  rw [implements, ContractDetail.mem_functionNames_ofContract,
    ContractDetail.mem_functionBodies_ofContract]
  rfl

/-- An entry holds what the contract and its ancestors declare, and nothing
else. -/
structure Gathers (unit : SourceUnit) (contract : ContractDef) (parents : List String)
    (detail : ContractDetail) : Prop where
  parents_eq : detail.parents = parents
  mem_stateVariables_iff : ∀ declared, declared ∈ detail.stateVariables ↔
    ∃ name ∈ contract.name :: parents, unit.Declares name declared
  mem_functionNames_iff : ∀ function, function ∈ detail.functionNames ↔
    ∃ name ∈ contract.name :: parents, unit.Implements name function

/-- Where names are different and ancestors come first, nothing that a contract
inherits is lost, over any number of steps, and nothing comes in from others. -/
theorem exists_detail_gathers (distinct : (unit.contracts.map (·.name)).Nodup)
    (ordered : unit.AncestorsFirst) {contract : ContractDef} (member : contract ∈ unit.contracts)
    (linearized : unit.inheritance.linearize.ancestorsOf contract.name = .ok parents) :
    ∃ detail, unit.aggregation.details.get? contract.name = some detail ∧
      unit.Gathers contract parents detail := by
  rcases exists_place_of_mem member with ⟨before, after, place⟩
  have found := details_settled distinct ordered place
  have linearizedAlone : unit.inheritance.ancestorsOf contract.name = .ok parents := by
    rw [← InheritanceTree.ancestorsOf_linearize, linearized]
  refine ⟨_, found, ?parents, ?state, ?functions⟩
  case parents =>
    rw [linearized]
    rfl
  case state =>
    refine InheritanceTree.gathered_iff ?entered
      (mem_stateVariables_iff_step distinct ordered) found linearizedAlone
    rintro _ declared ⟨declaring, isContract, rfl, isOwn⟩
    rcases exists_place_of_mem isContract with ⟨before, after, place⟩
    exact ⟨_, details_settled distinct ordered place⟩
  case functions =>
    refine InheritanceTree.gathered_iff ?implemented
      (mem_functionNames_iff_step distinct ordered) found linearizedAlone
    rintro name function ⟨base, baseFound, isOwn⟩
    exact ⟨base, baseFound⟩

/-- A diamond whose top has a base that is defined nowhere.  The struct `Point` is
defined on both sides, and each side has a variable of its own `Point`. -/
def diamondUnit : SourceUnit where
  items :=
    let variableOf (name : String) (type : TypeName) : Member :=
      .stateVariable ⟨name, some type, none, .mutable, .absent⟩
    let pointOf (fields : List VarDecl) : Member := .structDef ⟨"Point", fields⟩
    let functionOf (name : String) : Member := .callable ⟨name, .function, none, none, .null⟩
    [.contract ⟨"Top", .contract, ["Lost"],
        [variableOf "owner" (.elementary "address"), functionOf "own"]⟩,
      .contract ⟨"Left", .contract, ["Top"],
        [pointOf [], variableOf "corner" (.userDefined "Point" false), functionOf "move"]⟩,
      .contract ⟨"Right", .contract, ["Top"],
        [pointOf [⟨"x", some (.elementary "int"), none, .mutable, .absent⟩],
          variableOf "corner" (.userDefined "Point" false), variableOf "hook" .function]⟩,
      .contract ⟨"Bottom", .contract, ["Left", "Right"], [functionOf "own"]⟩]

/-- The bottom has the variables of the top and of both sides, among them the two corners,
and the functions of all of them. -/
theorem diamondUnit_gathers :
    (diamondUnit.contracts.map (·.name)).Nodup ∧ diamondUnit.AncestorsFirst ∧
    ((diamondUnit.aggregation.details.get? "Bottom").map fun detail =>
      (detail.stateVariables, detail.functionNames.toList)) =
      some ([⟨"owner", .elementary "address"⟩, ⟨"corner", .userDefined "Point" []⟩,
        ⟨"corner", .userDefined "Point" [⟨"x", .elementary "int"⟩]⟩], ["move", "own"]) ∧
    ∃ bottom ∈ diamondUnit.contracts,
      diamondUnit.inheritance.linearize.ancestorsOf bottom.name =
        .ok ["Left", "Right", "Top", "Lost"] ∧
      ∃ detail, diamondUnit.aggregation.details.get? bottom.name = some detail ∧
        diamondUnit.Gathers bottom ["Left", "Right", "Top", "Lost"] detail := by
  have distinct : (diamondUnit.contracts.map (·.name)).Nodup := by decide +kernel
  have ordered : diamondUnit.AncestorsFirst := ancestorsFirst_of_pairwise (by decide +kernel)
  have linearized : diamondUnit.inheritance.linearize.ancestorsOf "Bottom" =
      .ok ["Left", "Right", "Top", "Lost"] := by decide +kernel
  have member : diamondUnit.contracts[3] ∈ diamondUnit.contracts := List.getElem_mem _
  exact ⟨distinct, ordered, by decide +kernel, _, member, linearized,
    exists_detail_gathers distinct ordered member linearized⟩

end SourceUnit

end SolidityModel
