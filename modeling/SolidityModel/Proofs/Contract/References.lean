import SolidityModel.Analysis
import SolidityModel.Proofs.Contract.Aggregation
import SolidityModel.Proofs.Types.Reference

/-!
# References in a unit

A pass keeps one registry for all items and for the members of all contracts.  At
every place it holds the definitions in front of the place, in their order and
wherever they stand.  So each reference resolves to what its name stands for at its
own place, and nothing that comes later reaches a type that is resolved
(`SourceUnit.ResolvesReferences`).
-/

namespace SolidityModel

/-! ## Definitions in a unit -/

/-- The definition of a member that is a struct or an enum. -/
def Member.typeDef? : Member → Option TypeDef
  | .structDef definition => some (.struct definition)
  | .enumDef definition => some (.enum definition)
  | _ => none

/-- The structs and enums that an item defines, those of a contract included. -/
def UnitItem.typeDefs : UnitItem → List TypeDef
  | .contract definition => definition.members.filterMap Member.typeDef?
  | .structDef definition => [.struct definition]
  | .enumDef definition => [.enum definition]
  | _ => []

/-- The structs and enums that items define, in their order. -/
def typeDefs (items : List UnitItem) : List TypeDef :=
  items.flatMap UnitItem.typeDefs

theorem typeDefs_cons (item : UnitItem) (items : List UnitItem) :
    typeDefs (item :: items) = item.typeDefs ++ typeDefs items :=
  List.flatMap_cons

/-- Definitions of a unit end between two items or between two members of a
contract. -/
theorem exists_place_of_typeDefs {items : List UnitItem} {front back : List TypeDef}
    (split : typeDefs items = front ++ back) :
    (∃ before after, items = before ++ after ∧ typeDefs before = front) ∨
    ∃ before contract after earlier later, items = before ++ .contract contract :: after ∧
      contract.members = earlier ++ later ∧
      typeDefs before ++ earlier.filterMap Member.typeDef? = front := by
  induction items generalizing front with
  | nil =>
      rcases List.append_eq_nil_iff.mp split.symm with ⟨rfl, -⟩
      exact .inl ⟨[], [], rfl, rfl⟩
  | cons item rest ih =>
      rw [typeDefs_cons, List.append_eq_append_iff] at split
      rcases split with ⟨others, rfl, restSplit⟩ | ⟨others, itemSplit, -⟩
      · rcases ih restSplit with ⟨before, after, rfl, rfl⟩ |
          ⟨before, contract, after, earlier, later, rfl, membersSplit, rfl⟩
        · exact .inl ⟨item :: before, after, rfl, rfl⟩
        · exact .inr ⟨item :: before, contract, after, earlier, later, rfl, membersSplit,
            by rw [typeDefs_cons, List.append_assoc]⟩
      · cases item with
        | contract contract =>
            rcases List.filterMap_eq_append_iff.mp itemSplit with
              ⟨earlier, later, membersSplit, rfl, -⟩
            exact .inr ⟨[], contract, rest, earlier, later, rfl, membersSplit, rfl⟩
        | structDef | enumDef =>
            rcases List.append_eq_singleton_iff.mp itemSplit.symm with ⟨rfl, -⟩ | ⟨rfl, -⟩
            · exact .inl ⟨[], _, rfl, rfl⟩
            · exact .inl ⟨[_], rest, rfl, rfl⟩
        | pragma | other =>
            rcases List.append_eq_nil_iff.mp itemSplit.symm with ⟨rfl, -⟩
            exact .inl ⟨[], _, rfl, rfl⟩

namespace TypeRegistry

theorem afterMember_eq (registry : TypeRegistry) (member : Member) :
    registry.afterMember member = (member.typeDef?.map registry.enter).getD registry := by
  cases member <;> rfl

theorem foldl_afterMember (registry : TypeRegistry) (members : List Member) :
    members.foldl afterMember registry =
      (members.filterMap Member.typeDef?).foldl enter registry := by
  rw [List.foldl_filterMap]
  congr 1
  funext registry member
  rw [afterMember_eq]
  cases member.typeDef? <;> rfl

theorem afterItem_eq (registry : TypeRegistry) (item : UnitItem) :
    registry.afterItem item = item.typeDefs.foldl enter registry := by
  cases item with
  | contract definition => exact foldl_afterMember registry definition.members
  | structDef | enumDef | pragma | other => rfl

/-- The types known at a place come from the definitions in front of it. -/
theorem afterItems_eq_afterDefs (items : List UnitItem) :
    afterItems items = afterDefs (typeDefs items) := by
  rw [afterItems, afterDefs, typeDefs, List.foldl_flatMap]
  congr 1
  funext registry item
  exact afterItem_eq registry item

theorem foldl_afterMember_afterDefs (defs : List TypeDef) (members : List Member) :
    members.foldl afterMember (afterDefs defs) =
      afterDefs (defs ++ members.filterMap Member.typeDef?) := by
  rw [foldl_afterMember, afterDefs, afterDefs, List.foldl_append]

end TypeRegistry

/-! ## Own variables in their order -/

/-- The variable that a member of a contract makes: it declares no constant, and its
type resolves. -/
def Member.declared? (registry : TypeRegistry) (contract : String) : Member → Option Variable
  | .stateVariable decl =>
      match ConstantVar.ofDecl? contract decl with
      | some _ => none
      | none => registry.resolveVariable? decl
  | _ => none

/-- The variables that members of a contract make, each with the types known at its
place. -/
def variablesFrom (registry : TypeRegistry) (contract : String) : List Member → List Variable
  | [] => []
  | member :: rest =>
      (member.declared? registry contract).toList ++
        variablesFrom (registry.afterMember member) contract rest

theorem variablesFrom_append (registry : TypeRegistry) (contract : String)
    (earlier later : List Member) :
    variablesFrom registry contract (earlier ++ later) =
      variablesFrom registry contract earlier ++
        variablesFrom (earlier.foldl TypeRegistry.afterMember registry) contract later := by
  induction earlier generalizing registry with
  | nil => rfl
  | cons member rest ih =>
      rw [List.cons_append, variablesFrom, ih, variablesFrom, List.foldl_cons, List.append_assoc]

namespace OwnMembers

theorem stateVariables_add (contract : String) (own : OwnMembers) (member : Member) :
    (own.add contract member).stateVariables =
      own.stateVariables ++ (member.declared? own.registry contract).toList := by
  cases member with
  | stateVariable decl =>
      cases constant : ConstantVar.ofDecl? contract decl <;>
        simp [add, addVariable, constant, Member.declared?]
  | structDef | enumDef | callable | other => simp [add, Member.declared?]

theorem stateVariables_foldl_add (contract : String) (members : List Member) (own : OwnMembers) :
    (members.foldl (add contract) own).stateVariables =
      own.stateVariables ++ variablesFrom own.registry contract members := by
  induction members generalizing own with
  | nil => simp [variablesFrom]
  | cons member rest ih =>
      rw [List.foldl_cons, ih, stateVariables_add, registry_add, variablesFrom,
        List.append_assoc]

theorem registry_foldl_add (contract : String) (members : List Member) (own : OwnMembers) :
    (members.foldl (add contract) own).registry =
      members.foldl TypeRegistry.afterMember own.registry :=
  (List.foldl_hom OwnMembers.registry fun own member =>
    (registry_add contract own member).symm).symm

theorem stateVariables_ofContract (registry : TypeRegistry) (contract : ContractDef) :
    (ofContract registry contract).stateVariables =
      variablesFrom registry contract.name contract.members :=
  stateVariables_foldl_add contract.name contract.members (start registry)

end OwnMembers

/-! ## Every place of a pass -/

namespace SourceUnit

/-- A pass over a unit has met definitions and holds a registry.  It stands between
two items or between two members of a contract. -/
inductive Reaches (linearization : Linearization) (unit : SourceUnit) :
    List TypeDef → TypeRegistry → Prop where
  | items {before after : List UnitItem} : unit.items = before ++ after →
      Reaches linearization unit (typeDefs before)
        (before.foldl (Aggregation.visit linearization) .empty).registry
  | members {before after : List UnitItem} {contract : ContractDef}
      {earlier later : List Member} : unit.items = before ++ .contract contract :: after →
      contract.members = earlier ++ later →
      Reaches linearization unit (typeDefs before ++ earlier.filterMap Member.typeDef?)
        (earlier.foldl (OwnMembers.add contract.name)
          (.start (before.foldl (Aggregation.visit linearization) .empty).registry)).registry

variable {unit : SourceUnit} {linearization : Linearization}

theorem registry_foldl_visit_eq (items : List UnitItem) :
    (items.foldl (Aggregation.visit linearization) .empty).registry =
      .afterDefs (typeDefs items) := by
  rw [Aggregation.registry_foldl_visit, TypeRegistry.afterItems_eq_afterDefs]

/-- Wherever a pass stands, it holds the definitions that it has met. -/
theorem Reaches.registry_eq {defs : List TypeDef} {registry : TypeRegistry}
    (reaches : unit.Reaches linearization defs registry) : registry = .afterDefs defs := by
  cases reaches with
  | items split => exact registry_foldl_visit_eq _
  | members split membersSplit =>
      rw [OwnMembers.registry_foldl_add, OwnMembers.start, registry_foldl_visit_eq,
        TypeRegistry.foldl_afterMember_afterDefs]

/-- The pass comes to the front of every definition. -/
theorem reaches_of_typeDefs {front back : List TypeDef}
    (split : typeDefs unit.items = front ++ back) :
    unit.Reaches linearization front (.afterDefs front) := by
  rcases exists_place_of_typeDefs split with ⟨before, after, place, rfl⟩ |
    ⟨before, contract, after, earlier, later, place, membersSplit, rfl⟩
  · have reaches : unit.Reaches linearization _ _ := .items place
    exact reaches.registry_eq ▸ reaches
  · have reaches : unit.Reaches linearization _ _ := .members place membersSplit
    exact reaches.registry_eq ▸ reaches

/-- References in a unit resolve by the definitions in front of them.  `defs`,
`front` and the like are the definitions in front of a place. -/
structure ResolvesReferences (linearization : Linearization) (unit : SourceUnit) : Prop where
  /-- The pass comes to every definition, behind those in front of it. -/
  reaches : ∀ {front back}, typeDefs unit.items = front ++ back →
    unit.Reaches linearization front (.afterDefs front)
  /-- Wherever the pass stands, a name means the last definition of this name so far,
  and a struct has the members that were resolved in front of its own definition. -/
  registry_eq : ∀ {defs registry}, unit.Reaches linearization defs registry →
    registry = .afterDefs defs ∧
      ∀ path, registry.get? path = definedAs defs (lastSegment path)
  /-- As long as its name is not defined again, a struct keeps these members. -/
  members_kept : ∀ {front definition between registry},
    unit.Reaches linearization (front ++ .struct definition :: between) registry →
    (∀ later ∈ between, later.name ≠ lastSegment definition.name) →
    registry.get? definition.name =
      some (.struct ((TypeRegistry.afterDefs front).membersOfStruct definition))
  /-- The member of a struct resolves with the definitions in front of the struct. -/
  member : ∀ {front definition back}, typeDefs unit.items = front ++ .struct definition :: back →
    ∀ {earlier decl later type path knownEnum},
    definition.members = earlier ++ decl :: later → decl.type? = some type →
    type.spineEnd = .userDefined path knownEnum →
    ∃ resolved : ResolvedType, resolved.spineEnd = referent front path knownEnum ∧
      (TypeRegistry.afterDefs front).membersOfStruct definition =
        earlier.filterMap (TypeRegistry.afterDefs front).resolveVariable? ++
          ⟨decl.name, resolved⟩ ::
            later.filterMap (TypeRegistry.afterDefs front).resolveVariable?
  /-- An own variable resolves with the definitions in front of it.  Until another
  contract of the same name comes, the entry keeps it, and all its other variables
  too. -/
  stateVariable : ∀ {before contract after}, unit.items = before ++ .contract contract :: after →
    ∀ {earlier decl later type path knownEnum},
    contract.members = earlier ++ .stateVariable decl :: later →
    ConstantVar.ofDecl? contract.name decl = none → decl.type? = some type →
    type.spineEnd = .userDefined path knownEnum →
    ∃ resolved : ResolvedType,
      resolved.spineEnd =
        referent (typeDefs before ++ earlier.filterMap Member.typeDef?) path knownEnum ∧
      ∃ inherited, ∀ between, between <+: after → contract.name ∉ contractNames between →
        ∃ detail, ((before ++ .contract contract :: between).foldl
            (Aggregation.visit linearization) .empty).details.get? contract.name = some detail ∧
          detail.stateVariables = inherited ++
            variablesFrom (.afterDefs (typeDefs before)) contract.name earlier ++
              ⟨decl.name, resolved⟩ ::
                variablesFrom
                  (.afterDefs (typeDefs before ++ earlier.filterMap Member.typeDef?))
                  contract.name later
  /-- The analysis ends with the types and the variables of the pass. -/
  analyzed : ∀ config,
    (unit.analyze config).types = unit.aggregation.registry ∧
      ∀ name, ((unit.analyze config).contracts.get? name).map (·.stateVariables) =
        (unit.aggregation.details.get? name).map (·.stateVariables)

/-- The variables of an entry, as long as no other contract of the same name
comes. -/
theorem exists_stateVariables_of_place (linearization : Linearization) (before : List UnitItem)
    (contract : ContractDef) :
    ∃ inherited, ∀ between, contract.name ∉ contractNames between →
      ∃ detail, ((before ++ .contract contract :: between).foldl
          (Aggregation.visit linearization) .empty).details.get? contract.name = some detail ∧
        detail.stateVariables = inherited ++
          variablesFrom (.afterDefs (typeDefs before)) contract.name contract.members := by
  let known := (before.foldl (Aggregation.visit linearization) .empty).details
  let parents := (linearization.ancestorsOf contract.name).toOption.getD []
  refine ⟨inheritedVariables (knownDetails known parents), fun between last =>
    ⟨_, Aggregation.get?_details_of_place last, ?_⟩⟩
  change inheritedVariables _ ++ (OwnMembers.ofContract _ contract).stateVariables = _
  rw [TypeRegistry.afterItems_eq_afterDefs, OwnMembers.stateVariables_ofContract]

/-- References resolve this way in every unit, with definitions and uses in any order,
any number of definitions of one name, and any order of the ancestors. -/
theorem resolvesReferences (linearization : Linearization) (unit : SourceUnit) :
    unit.ResolvesReferences linearization where
  reaches := reaches_of_typeDefs
  registry_eq reaches := by
    rw [reaches.registry_eq]
    exact ⟨rfl, TypeRegistry.get?_afterDefs _⟩
  members_kept := by
    intro front definition between registry reaches last
    have named : (TypeDef.struct definition).name = lastSegment definition.name := rfl
    rw [reaches.registry_eq, TypeRegistry.get?_afterDefs, definedAs,
      lastNamed?_append_cons named front last, Option.map_some]
  member := by
    intro front definition back split earlier decl later type path knownEnum membersSplit
      declared ends
    rcases TypeRegistry.exists_resolveVariable?_afterDefs front declared ends with
      ⟨resolved, resolves, end_eq⟩
    refine ⟨resolved, end_eq, ?_⟩
    rw [TypeRegistry.membersOfStruct, membersSplit, List.filterMap_append,
      List.filterMap_cons_some resolves]
  stateVariable := by
    intro before contract after place earlier decl later type path knownEnum membersSplit
      notConstant declared ends
    rcases TypeRegistry.exists_resolveVariable?_afterDefs
      (typeDefs before ++ earlier.filterMap Member.typeDef?) declared ends with
      ⟨resolved, resolves, end_eq⟩
    rcases exists_stateVariables_of_place linearization before contract with ⟨inherited, entry⟩
    refine ⟨resolved, end_eq, inherited, fun between _ last => ?_⟩
    rcases entry between last with ⟨detail, found, listed⟩
    refine ⟨detail, found, ?_⟩
    rw [listed, membersSplit, variablesFrom_append, variablesFrom,
      TypeRegistry.foldl_afterMember_afterDefs, TypeRegistry.afterMember, Member.declared?,
      notConstant, List.append_assoc]
    simp only [resolves, Option.toList_some, List.cons_append, List.nil_append]
  analyzed config := by
    refine ⟨rfl, fun name => ?_⟩
    change ((unit.aggregation.details.map _).get? name).map _ = _
    rw [NameMap.get?_map, Option.map_map]
    rfl

/-- The declaration of a variable without an initial value. -/
def declOf (name : String) (type : TypeName) : VarDecl :=
  ⟨name, some type, none, .mutable, .absent⟩

/-- A point that refers to its own name and to a name that is not defined yet. -/
def outerPoint : StructDef :=
  ⟨"Point", [declOf "next" (.userDefined "Point" false),
    declOf "corner" (.userDefined "Corner" false)]⟩

def pointEnum : EnumDef :=
  ⟨"Point", ["inside", "outside"]⟩

/-- A point that refers to what its name means before. -/
def innerPoint : StructDef :=
  ⟨"Point", [declOf "old" (.userDefined "Point" false)]⟩

def cornerStruct : StructDef :=
  ⟨"Corner", [declOf "angle" (.elementary "uint256")]⟩

/-- The points of a board by the addresses of their owners. -/
def ownedPoints : VarDecl :=
  declOf "owned" (.mapping (.elementary "address") (.array (.userDefined "Board.Point" false) none))

/-- A contract in front of which `Point` is a struct, and in which it becomes an enum and
then another struct. -/
def boardContract : ContractDef :=
  ⟨"Board", .contract, [],
    [.stateVariable (declOf "first" (.userDefined "Point" false)), .enumDef pointEnum,
      .stateVariable (declOf "second" (.userDefined "Point" false)), .structDef innerPoint,
      .stateVariable ownedPoints, .stateVariable (declOf "side" (.userDefined "Board.Point" true))]⟩

def pointsUnit : SourceUnit where
  items := [.structDef outerPoint, .contract boardContract, .structDef cornerStruct]

/-- At each place `Point` means the last of its definitions so far, and so does
`Board.Point`. -/
theorem pointsUnit_resolvesReferences :
    let oldPoint : ResolvedType := .userDefined "Point" [⟨"old", .enum "Point"⟩]
    (∃ resolved : ResolvedType, resolved.spineEnd = .enum "Point" ∧
      (TypeRegistry.afterDefs [.struct outerPoint, .enum pointEnum]).membersOfStruct innerPoint =
        [⟨"old", resolved⟩]) ∧
    pointsUnit.aggregation.registry.get? innerPoint.name = some (.struct
      ((TypeRegistry.afterDefs [.struct outerPoint, .enum pointEnum]).membersOfStruct
        innerPoint)) ∧
    pointsUnit.aggregation.registry.get? "Board.Point" =
      some (.struct [⟨"old", .enum "Point"⟩]) ∧
    (pointsUnit.aggregation.details.get? "Board").map (·.stateVariables) = some [
      ⟨"first", .userDefined "Point"
        [⟨"next", .userDefined "Point" []⟩, ⟨"corner", .userDefined "Corner" []⟩]⟩,
      ⟨"second", .enum "Point"⟩,
      ⟨"owned", .mapping "address" (.array oldPoint [none])⟩,
      ⟨"side", .enum "Point"⟩] ∧
    ∃ detail, pointsUnit.aggregation.details.get? "Board" = some detail ∧
      ∃ resolved : ResolvedType, resolved.spineEnd = oldPoint ∧
        ⟨"owned", resolved⟩ ∈ detail.stateVariables := by
  intro oldPoint
  let linearization := pointsUnit.inheritance.linearize
  have resolves := resolvesReferences linearization pointsUnit
  have defined : typeDefs pointsUnit.items =
      [.struct outerPoint, .enum pointEnum] ++ .struct innerPoint :: [.struct cornerStruct] := rfl
  have reaches : pointsUnit.Reaches linearization (typeDefs pointsUnit.items)
      pointsUnit.aggregation.registry :=
    .items (List.append_nil pointsUnit.items).symm
  refine ⟨?innerMember, ?kept, ?qualified, by decide +kernel, ?own⟩
  case innerMember =>
    have isMember : innerPoint.members = [] ++ declOf "old" (.userDefined "Point" false) :: [] :=
      rfl
    rcases resolves.member defined isMember rfl rfl with ⟨resolved, means, members⟩
    exact ⟨resolved, means.trans (by decide +kernel), members⟩
  case kept =>
    have last : ∀ later ∈ [TypeDef.struct cornerStruct],
        later.name ≠ lastSegment innerPoint.name := by
      decide +kernel
    rw [defined] at reaches
    exact resolves.members_kept reaches last
  case qualified =>
    rw [(resolves.registry_eq reaches).2 "Board.Point"]
    decide +kernel
  case own =>
    have place : pointsUnit.items =
        [.structDef outerPoint] ++ .contract boardContract :: [.structDef cornerStruct] := rfl
    have isMember : boardContract.members = boardContract.members.take 4 ++
        .stateVariable ownedPoints :: boardContract.members.drop 5 := rfl
    rcases resolves.stateVariable place isMember rfl rfl rfl with
      ⟨resolved, means, inherited, entry⟩
    rcases entry _ (List.prefix_refl _) List.not_mem_nil with ⟨detail, found, listed⟩
    refine ⟨detail, found, resolved, means.trans (by decide +kernel), ?_⟩
    rw [listed]
    exact List.mem_append_right _ List.mem_cons_self

end SourceUnit

end SolidityModel
