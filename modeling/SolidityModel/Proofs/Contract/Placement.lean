import Mathlib.Data.List.Basic
import Mathlib.Data.List.Forall2
import Mathlib.Data.List.Induction
import SolidityModel.Proofs.Contract.Entry
import SolidityModel.Proofs.Contract.References

/-!
# Where state variables end

A pass looks at every declaration of a state variable once.  It makes a constant of
the unit, a variable of its contract, or nothing, and both lists keep the order of
the declarations.  In front of the own variables of a contract stands what its
ancestors list at this point of the pass, each value where it is met first
(`SourceUnit.placesVariables`).  This holds for any order of the ancestors, also for
one that does not belong to the unit.
-/

namespace SolidityModel

/-! ## First occurrences -/

section FirstOccurrences

variable {α : Type} [BEq α] [LawfulBEq α] {met kept : List α} {value : α}

/-- A list holds the values of another one, each once and in the order in which they
are met there for the first time. -/
structure KeepsFirst (met kept : List α) : Prop where
  mem_iff : ∀ value, value ∈ kept ↔ value ∈ met
  increasing : kept.Pairwise fun earlier later => met.idxOf earlier < met.idxOf later

namespace KeepsFirst

omit [LawfulBEq α] in
theorem nodup (keeps : KeepsFirst met kept) : kept.Nodup :=
  keeps.increasing.imp fun before equal => by
    rw [equal] at before
    exact lt_irrefl _ before

/-- A value that was met before adds nothing. -/
theorem concat_of_mem (keeps : KeepsFirst met kept) (isOld : value ∈ met) :
    KeepsFirst (met ++ [value]) kept where
  mem_iff other := by
    rw [keeps.mem_iff, List.mem_append, List.mem_singleton]
    exact ⟨.inl, fun member => member.elim id fun equal => equal ▸ isOld⟩
  increasing := keeps.increasing.imp_of_mem fun {earlier later} isEarlier isLater before => by
    rwa [List.idxOf_append_of_mem ((keeps.mem_iff earlier).mp isEarlier),
      List.idxOf_append_of_mem ((keeps.mem_iff later).mp isLater)]

/-- A new value comes in last. -/
theorem concat_of_not_mem (keeps : KeepsFirst met kept) (isNew : value ∉ met) :
    KeepsFirst (met ++ [value]) (kept ++ [value]) where
  mem_iff other := by
    rw [List.mem_append, keeps.mem_iff, List.mem_append]
  increasing := by
    have place : ∀ other ∈ kept, (met ++ [value]).idxOf other = met.idxOf other :=
      fun other member => List.idxOf_append_of_mem ((keeps.mem_iff other).mp member)
    rw [List.pairwise_append]
    refine ⟨keeps.increasing.imp_of_mem fun {earlier later} isEarlier isLater before => ?_,
      List.pairwise_singleton _ _, fun earlier isEarlier later isLater => ?_⟩
    · rwa [place earlier isEarlier, place later isLater]
    · rw [List.mem_singleton] at isLater
      rw [place earlier isEarlier, isLater, List.idxOf_append_of_notMem isNew]
      have inFront := List.idxOf_lt_length_of_mem ((keeps.mem_iff earlier).mp isEarlier)
      omega

end KeepsFirst

theorem keepsFirst_eraseDups (met : List α) : KeepsFirst met met.eraseDups := by
  induction met using List.reverseRecOn with
  | nil => exact ⟨fun value => Iff.rfl, .nil⟩
  | append_singleton front value ih =>
      rw [List.eraseDups_append]
      by_cases isOld : value ∈ front
      · simpa [List.removeAll, isOld] using ih.concat_of_mem isOld
      · simpa [List.removeAll, isOld, List.eraseDups_cons] using ih.concat_of_not_mem isOld

end FirstOccurrences

/-! ## The placement of a declaration -/

/-- What a declaration of a state variable makes. -/
inductive Placement where
  /-- A constant of the unit. -/
  | constant (made : ConstantVar)
  /-- A variable of its contract. -/
  | own (made : Variable)
  /-- Nothing: its type has no resolution. -/
  | dropped
  deriving DecidableEq

namespace Placement

/-- The constant that a declaration makes. -/
def constant? : Placement → Option ConstantVar
  | constant made => some made
  | _ => none

/-- The variable that a declaration makes. -/
def own? : Placement → Option Variable
  | own made => some made
  | _ => none

end Placement

/-- What a declaration makes in a contract: a constant if it cannot change and its
value is a literal, else a variable if its type has a resolution. -/
def VarDecl.placement (registry : TypeRegistry) (contract : String) (decl : VarDecl) :
    Placement :=
  match decl.mutability, decl.initializer with
  | .constant, .literal value | .immutable, .literal value =>
      .constant ⟨contract, decl.name, decl.typeText?.getD "", value⟩
  | _, _ =>
      match decl.type?.bind registry.resolve? with
      | some type => .own ⟨decl.name, type⟩
      | none => .dropped

namespace VarDecl

variable (registry : TypeRegistry) (contract : String) (decl : VarDecl)

theorem constant?_placement :
    (decl.placement registry contract).constant? = ConstantVar.ofDecl? contract decl := by
  rw [placement, ConstantVar.ofDecl?]
  cases mutability : decl.mutability <;> cases initial : decl.initializer <;>
    cases type : decl.type?.bind registry.resolve? <;>
    simp [Placement.constant?, Initializer.literal?]

theorem own?_placement :
    (decl.placement registry contract).own? =
      (Member.stateVariable decl).declared? registry contract := by
  rw [placement, Member.declared?, ConstantVar.ofDecl?, TypeRegistry.resolveVariable?]
  cases mutability : decl.mutability <;> cases initial : decl.initializer <;>
    cases type : decl.type?.bind registry.resolve? <;>
    simp [Placement.own?, Initializer.literal?]

end VarDecl

/-! ## The placements of a unit -/

/-- The declaration of a member that is a state variable. -/
def Member.stateVariable? : Member → Option VarDecl
  | .stateVariable decl => some decl
  | _ => none

/-- What the state variables among members of a contract make, each with the types
known at its place. -/
def placementsFrom (registry : TypeRegistry) (contract : String) : List Member → List Placement
  | [] => []
  | .stateVariable decl :: rest =>
      decl.placement registry contract :: placementsFrom registry contract rest
  | member :: rest => placementsFrom (registry.afterMember member) contract rest

/-- What the state variables of the contracts among items make, one contract after
the other. -/
def placementsOfItems (registry : TypeRegistry) : List UnitItem → List Placement
  | [] => []
  | .contract definition :: rest =>
      placementsFrom registry definition.name definition.members ++
        placementsOfItems (registry.afterItem (.contract definition)) rest
  | item :: rest => placementsOfItems (registry.afterItem item) rest

namespace SourceUnit

/-- The declarations of state variables in the order of the source, each with the
name of its contract. -/
def stateVariableDecls (unit : SourceUnit) : List (String × VarDecl) :=
  unit.contracts.flatMap fun contract =>
    (contract.members.filterMap Member.stateVariable?).map (contract.name, ·)

/-- What the state variables of a unit make, in the order of their declarations. -/
def placements (unit : SourceUnit) : List Placement :=
  placementsOfItems .empty unit.items

end SourceUnit

/-- A declaration is placed, with some types known. -/
def IsPlacement (declared : String × VarDecl) (placement : Placement) : Prop :=
  ∃ registry, placement = declared.2.placement registry declared.1

theorem forall₂_placementsFrom (registry : TypeRegistry) (contract : String)
    (members : List Member) :
    List.Forall₂ IsPlacement ((members.filterMap Member.stateVariable?).map (contract, ·))
      (placementsFrom registry contract members) := by
  induction members generalizing registry with
  | nil => exact .nil
  | cons member rest ih =>
      cases member with
      | stateVariable decl => exact .cons ⟨registry, rfl⟩ (ih registry)
      | structDef | enumDef | callable | other => exact ih _

/-- A declaration without a readable type is dropped. -/
example : placementsFrom .empty "Vault"
    [.stateVariable ⟨"FEE", some (.elementary "uint8"), some "uint8", .constant, .literal "3"⟩,
      .stateVariable ⟨"owner", some (.elementary "address"), none, .immutable, .expression⟩,
      .stateVariable ⟨"hook", none, none, .mutable, .absent⟩] =
    [.constant ⟨"Vault", "FEE", "uint8", "3"⟩, .own ⟨"owner", .elementary "address"⟩,
      .dropped] := by
  decide +kernel

theorem forall₂_placementsOfItems (registry : TypeRegistry) (items : List UnitItem) :
    List.Forall₂ IsPlacement
      (SourceUnit.stateVariableDecls ⟨items⟩) (placementsOfItems registry items) := by
  induction items generalizing registry with
  | nil => exact .nil
  | cons item rest ih =>
      cases item with
      | contract definition =>
          exact List.rel_append (forall₂_placementsFrom registry definition.name _) (ih _)
      | structDef | enumDef | pragma | other => exact ih _

theorem constants_eq_placementsFrom (registry : TypeRegistry) (contract : String)
    (members : List Member) :
    members.filterMap (Member.constant? contract) =
      (placementsFrom registry contract members).filterMap Placement.constant? := by
  induction members generalizing registry with
  | nil => rfl
  | cons member rest ih =>
      cases member with
      | stateVariable decl =>
          rw [placementsFrom, List.filterMap_cons, List.filterMap_cons,
            decl.constant?_placement, ih registry, Member.constant?]
      | structDef | enumDef | callable | other => exact ih _

theorem variablesFrom_eq_placementsFrom (registry : TypeRegistry) (contract : String)
    (members : List Member) :
    variablesFrom registry contract members =
      (placementsFrom registry contract members).filterMap Placement.own? := by
  induction members generalizing registry with
  | nil => rfl
  | cons member rest ih =>
      cases member with
      | stateVariable decl =>
          rw [placementsFrom, List.filterMap_cons, variablesFrom, decl.own?_placement]
          cases (Member.stateVariable decl).declared? registry contract <;>
          exact congrArg _ (ih registry)
      | structDef | enumDef | callable | other => exact ih _

theorem constants_eq_placementsOfItems (registry : TypeRegistry) (items : List UnitItem) :
    (items.filterMap UnitItem.contract?).flatMap ContractDef.constants =
      (placementsOfItems registry items).filterMap Placement.constant? := by
  induction items generalizing registry with
  | nil => rfl
  | cons item rest ih =>
      cases item with
      | contract definition =>
          rw [placementsOfItems, List.filterMap_append, ← constants_eq_placementsFrom, ← ih]
          rfl
      | structDef | enumDef | pragma | other => exact ih _

/-! ## The pass over a unit -/

/-- What the ancestors of a contract list at present, one ancestor after the other.  An
ancestor that is not known yet lists nothing, and without an order there are none. -/
def listedByAncestors (details : NameMap ContractDetail) :
    Except InheritanceError (List String) → List Variable
  | .ok parents => parents.flatMap fun parent =>
      ((details.get? parent).map (·.stateVariables)).getD []
  | .error _ => []

theorem flatMap_knownDetails (details : NameMap ContractDetail)
    (ancestors : Except InheritanceError (List String)) :
    (knownDetails details (ancestors.toOption.getD [])).flatMap (·.stateVariables) =
      listedByAncestors details ancestors := by
  cases ancestors with
  | error error => rfl
  | ok parents =>
      simp only [Except.toOption, Option.getD_some, knownDetails, listedByAncestors]
      induction parents with
      | nil => rfl
      | cons parent rest ih =>
          rw [List.filterMap_cons, List.flatMap_cons, ← ih]
          cases details.get? parent <;> rfl

/-- The name and the key type of a mapping. -/
def IsMappingDecl (mapping : MappingDecl) (declared : Variable) : Prop :=
  ∃ value, declared = ⟨mapping.name, .mapping mapping.keyType value⟩

theorem forall₂_mappings (own : List Variable) :
    List.Forall₂ IsMappingDecl (own.filterMap MappingDecl.ofVariable?)
      (own.filter (·.type.IsMapping)) := by
  induction own with
  | nil => exact .nil
  | cons declared rest ih =>
      rcases declared with ⟨name, type⟩
      cases type with
      | mapping keyType value => exact .cons ⟨value, rfl⟩ ih
      | elementary | enum | userDefined | array => exact ih

namespace SourceUnit

/-- A pass over a unit places all state variables. -/
structure PlacesVariables (linearization : Linearization) (unit : SourceUnit) : Prop where
  /-- Every declaration is placed once, in the order of the source. -/
  placed : List.Forall₂ IsPlacement unit.stateVariableDecls unit.placements
  /-- The constants come in the order of the source. -/
  constants_eq : (Aggregation.ofUnit unit linearization).constants =
    unit.placements.filterMap Placement.constant?
  /-- Once a contract is visited, its entry lists what its ancestors listed then, each
  value where it was met first, and behind it all that is placed in the contract.  The
  entry stays until another contract of its name comes. -/
  visited : ∀ {before contract after}, unit.items = before ++ .contract contract :: after →
    ∃ detail inherited own,
      (∀ between, between <+: after → contract.name ∉ contractNames between →
        ((before ++ .contract contract :: between).foldl
          (Aggregation.visit linearization) .empty).details.get? contract.name = some detail) ∧
      detail.stateVariables = inherited ++ own ∧ inherited.Nodup ∧
      KeepsFirst
        (listedByAncestors (before.foldl (Aggregation.visit linearization) .empty).details
          (linearization.ancestorsOf contract.name)) inherited ∧
      own = (placementsFrom (.afterItems before) contract.name contract.members).filterMap
        Placement.own? ∧
      List.Forall₂ IsMappingDecl detail.mappings (own.filter (·.type.IsMapping))

/-- Variables are placed like this in every unit, whatever the order of its contracts
and of their ancestors. -/
theorem placesVariables (linearization : Linearization) (unit : SourceUnit) :
    unit.PlacesVariables linearization where
  placed := forall₂_placementsOfItems .empty unit.items
  constants_eq :=
    (Aggregation.constants_foldl_visit unit.items .empty).trans
      (constants_eq_placementsOfItems .empty unit.items)
  visited := by
    intro before contract after place
    let known := (before.foldl (Aggregation.visit linearization) .empty).details
    let ancestors := linearization.ancestorsOf contract.name
    let own := (OwnMembers.ofContract (.afterItems before) contract).stateVariables
    have keeps : KeepsFirst (listedByAncestors known ancestors)
        (inheritedVariables (knownDetails known (ancestors.toOption.getD []))) := by
      rw [inheritedVariables, flatMap_knownDetails]
      exact keepsFirst_eraseDups _
    have ownPlaced : own = (placementsFrom (.afterItems before) contract.name
        contract.members).filterMap Placement.own? := by
      rw [← variablesFrom_eq_placementsFrom]
      exact OwnMembers.stateVariables_ofContract _ contract
    exact ⟨_, _, own, fun between _ last => Aggregation.get?_details_of_place last, rfl,
      keeps.nodup, keeps, ownPlaced, forall₂_mappings own⟩

/-- A mapping from addresses to amounts. -/
def amountsDecl (name : String) : VarDecl :=
  declOf name (.mapping (.elementary "address") (.elementary "uint256"))

def ownerDecl : VarDecl :=
  declOf "owner" (.elementary "address")

/-- Two contracts that both declare an owner. -/
def vaultBases : List UnitItem :=
  let fee : VarDecl := ⟨"FEE", some (.elementary "uint8"), some "uint8", .constant, .literal "3"⟩
  [.contract ⟨"Ledger", .contract, [],
      [.stateVariable fee, .stateVariable ownerDecl, .stateVariable (amountsDecl "balances")]⟩,
    .contract ⟨"Owned", .contract, [], [.stateVariable ownerDecl]⟩]

/-- A contract that derives from both and declares an owner once more, besides a mapping,
a fixed limit and a variable without a readable type. -/
def vaultContract : ContractDef :=
  let limit : VarDecl := ⟨"LIMIT", some (.elementary "uint8"), none, .immutable, .literal "9"⟩
  let hook : VarDecl := ⟨"hook", none, none, .mutable, .absent⟩
  ⟨"Vault", .contract, ["Ledger", "Owned"], [.stateVariable (amountsDecl "shares"),
    .stateVariable limit, .stateVariable ownerDecl, .stateVariable hook]⟩

def vaultUnit : SourceUnit where
  items := vaultBases ++ [.contract vaultContract]

/-- The vault inherits one of the owners of its bases and keeps its own, and of the two
mappings it declares one. -/
theorem vaultUnit_placesVariables :
    let owner : Variable := ⟨"owner", .elementary "address"⟩
    let mappingOf (name : String) : Variable := ⟨name, .mapping "address" (.elementary "uint256")⟩
    vaultUnit.aggregation.constants =
        [⟨"Ledger", "FEE", "uint8", "3"⟩, ⟨"Vault", "LIMIT", "", "9"⟩] ∧
      ∃ detail inherited own, vaultUnit.aggregation.details.get? "Vault" = some detail ∧
        detail.stateVariables = inherited ++ own ∧
        KeepsFirst [owner, mappingOf "balances", owner] inherited ∧
        inherited = [owner, mappingOf "balances"] ∧
        own = [mappingOf "shares", owner] ∧
        List.Forall₂ IsMappingDecl detail.mappings (own.filter (·.type.IsMapping)) ∧
        detail.mappings = [⟨"shares", "address"⟩] := by
  intro owner mappingOf
  let linearization := vaultUnit.inheritance.linearize
  have places := placesVariables linearization vaultUnit
  have place : vaultUnit.items = vaultBases ++ .contract vaultContract :: [] := rfl
  rcases places.visited place with
    ⟨detail, inherited, own, entry, together, -, keeps, ownPlaced, mappings⟩
  have found : vaultUnit.aggregation.details.get? "Vault" = some detail :=
    entry [] List.nil_prefix List.not_mem_nil
  have listed : listedByAncestors
      (vaultBases.foldl (Aggregation.visit linearization) .empty).details
      (linearization.ancestorsOf "Vault") = [owner, mappingOf "balances", owner] := by
    decide +kernel
  have ownIs : own = [mappingOf "shares", owner] := ownPlaced.trans (by decide +kernel)
  have evaluated : (vaultUnit.aggregation.details.get? "Vault").map
      (fun detail => (detail.stateVariables, detail.mappings)) =
        some ([owner, mappingOf "balances", mappingOf "shares", owner],
          [⟨"shares", "address"⟩]) := by
    decide +kernel
  rw [found, Option.map_some, Option.some.injEq, Prod.mk.injEq] at evaluated
  have inheritedIs : inherited = [owner, mappingOf "balances"] := by
    rw [together, ownIs] at evaluated
    exact List.append_cancel_right evaluated.1
  have constants : vaultUnit.placements.filterMap Placement.constant? =
      [⟨"Ledger", "FEE", "uint8", "3"⟩, ⟨"Vault", "LIMIT", "", "9"⟩] := by
    decide +kernel
  exact ⟨places.constants_eq.trans constants, detail, inherited, own, found, together,
    listed ▸ keeps, inheritedIs, ownIs, mappings, evaluated.2⟩

end SourceUnit

end SolidityModel
