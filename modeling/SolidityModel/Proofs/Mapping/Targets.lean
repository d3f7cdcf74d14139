import Mathlib.Data.List.Forall2
import Mathlib.Data.List.Induction
import SolidityModel.Mapping.Writes

/-!
# Which assignments write to a mapping

The search for writes walks through the statements of a body and, at every
assignment, down a chain of index accesses and back.  Here both are said without
a walk: a body has a list of assignment targets (`Block.targets`), and a target
is or is not an element of a visible mapping (`WriteSearch.WritesTo`) whose keys
can all be told (`WriteSearch.Tells`).  The search flags a body that has a target
of the first kind and records those of the second in their order
(`Callable.writes_of_targets`).
-/

namespace SolidityModel

/-! ## Chains of index accesses and their keys -/

namespace Expr

/-- The expression `root[first]...[last]`, in which an index may be missing. -/
def indexed (root : Expr) (indices : List (Option Expr)) : Expr :=
  indices.foldl indexAccess root

/-- An identifier, or member accesses over one, written as a dotted path. -/
inductive HasPath : Expr → String → Prop where
  | identifier (name : String) : HasPath (identifier name) name
  | memberAccess {object : Expr} {path : String} (member : String) (inner : HasPath object path) :
      HasPath (memberAccess object member) (path ++ "." ++ member)

/-- A key that can be told: a literal as written, or a dotted path. -/
inductive HasKey : Expr → String → Prop where
  | literal (text : String) : HasKey (literal text) text
  | path {expr : Expr} {path : String} (hasPath : HasPath expr path) : HasKey expr path

variable {root : String} {indices : List (Option Expr)}

theorem indexed_concat (expr : Expr) (indices : List (Option Expr)) (last : Option Expr) :
    expr.indexed (indices ++ [last]) = .indexAccess (expr.indexed indices) last := by
  simp [indexed]

theorem indexChain_indexed (root : String) (indices : List (Option Expr)) :
    ((identifier root).indexed indices).indexChain = (identifier root, indices) := by
  induction indices using List.reverseRecOn with
  | nil => rfl
  | append_singleton indices last ih => rw [indexed_concat, indexChain, ih]

/-- The chain of an expression spells the expression. -/
theorem indexed_indexChain (expr : Expr) : expr.indexChain.1.indexed expr.indexChain.2 = expr := by
  induction expr using indexChain.induct with
  | case1 base index ih => rw [indexChain, indexed_concat, ih]
  | case2 expr notAccess => rw [indexChain.eq_2 expr notAccess]; rfl

theorem indexChain_eq_iff {expr : Expr} :
    expr.indexChain = (identifier root, indices) ↔ expr = (identifier root).indexed indices := by
  constructor
  · intro chain
    rw [← indexed_indexChain expr, chain]
  · rintro rfl
    exact indexChain_indexed root indices

theorem dottedPath?_eq_some_iff {expr : Expr} {path : String} :
    expr.dottedPath? = some path ↔ expr.HasPath path := by
  constructor
  · intro found
    induction expr using dottedPath?.induct generalizing path with
    | case1 name =>
        cases found
        exact .identifier name
    | case2 object member ih =>
        rw [dottedPath?, Option.map_eq_some_iff] at found
        rcases found with ⟨inner, innerFound, rfl⟩
        exact .memberAccess member (ih innerFound)
    | case3 expr notName notMember =>
        rw [dottedPath?.eq_3 expr notName notMember] at found
        cases found
  · intro hasPath
    induction hasPath with
    | identifier name => rfl
    | memberAccess member inner ih => rw [dottedPath?, ih]; rfl

theorem key?_eq_some_iff {expr : Expr} {key : String} :
    expr.key? = some key ↔ expr.HasKey key := by
  constructor
  · intro found
    cases expr with
    | literal text =>
        cases found
        exact .literal key
    | assignment | indexAccess | memberAccess | identifier | other =>
        exact .path (dottedPath?_eq_some_iff.mp found)
  · intro hasKey
    cases hasKey with
    | literal => rfl
    | path hasPath =>
        have found := dottedPath?_eq_some_iff.mpr hasPath
        cases hasPath <;> exact found

end Expr

/-- Outcomes that are all there, one for each entry. -/
theorem mapM_eq_some_iff_forall₂ {α β : Type} {visit : α → Option β} {entries : List α}
    {results : List β} :
    entries.mapM visit = some results ↔
      List.Forall₂ (fun entry result => visit entry = some result) entries results := by
  induction entries generalizing results with
  | nil => simp [eq_comm]
  | cons entry rest ih =>
      rw [List.mapM_cons, List.forall₂_cons_left_iff]
      cases visit entry with
      | none => simp
      | some result =>
          cases later : rest.mapM visit with
          | none => simp [← ih, later]
          | some others => simp [← ih, later, eq_comm]

/-! ## Targets of assignments -/

mutual

/-- The left-hand sides of the assignments in a statement, in their order.  Nothing
is looked for in statements of other kinds. -/
def Stmt.targets : Stmt → List Expr
  | .expression (.assignment _ target) => [target]
  | .expression _ => []
  | .conditional thenBlock none => Block.targets thenBlock
  | .conditional thenBlock (some elseBlock) => Block.targets thenBlock ++ Block.targets elseBlock
  | .forLoop body => Block.targets body
  | .other _ => []

/-- The left-hand sides of the assignments in a block, in their order. -/
def Block.targets : Block → List Expr
  | [] => []
  | statement :: rest => statement.targets ++ Block.targets rest

end

/-- The left-hand sides of the assignments in a function or modifier. -/
def Callable.targets (definition : Callable) : List Expr :=
  Block.targets (definition.body?.getD [])

namespace WriteSearch

variable {search : WriteSearch} {target : Expr} {mapping : String}
  {indices : List (Option Expr)} {record : MappingWrite}

/-- A target is an element of a visible mapping, under one index or more. -/
def WritesTo (search : WriteSearch) (target : Expr) (mapping : String) : Prop :=
  mapping ∈ search.mappings ∧ ∃ indices, indices ≠ [] ∧
    target = (Expr.identifier mapping).indexed indices

/-- A record tells of a write to a target, whose indices are all there and have
keys. -/
structure Tells (search : WriteSearch) (target : Expr) (record : MappingWrite) : Prop where
  contract_eq : record.contract = search.contract
  function_eq : record.function = search.function
  mem_mappings : record.mapping ∈ search.mappings
  exists_keys : ∃ indices keys, indices ≠ [] ∧
    target = (Expr.identifier record.mapping).indexed indices ∧
    List.Forall₂ (fun index key => ∃ expr ∈ index, expr.HasKey key) indices keys ∧
    record.keyPath = search.function :: keys

/-! ## What is found in one target -/

theorem record?_eq_some_iff :
    search.record? mapping indices = some record ↔
      ∃ keys, List.Forall₂ (fun index key => ∃ expr ∈ index, Expr.HasKey expr key) indices keys ∧
        record = ⟨search.contract, search.function, mapping, search.function :: keys⟩ := by
  have told : ∀ (index : Option Expr) key,
      index.bind Expr.key? = some key ↔ ∃ expr ∈ index, expr.HasKey key := by
    intro index key
    simp [Option.bind_eq_some_iff, Expr.key?_eq_some_iff]
  simp only [record?, Option.map_eq_some_iff, mapM_eq_some_iff_forall₂, told]
  exact exists_congr fun keys => and_congr_right fun _ => eq_comm

theorem inTarget_indexed (visible : mapping ∈ search.mappings) (nonempty : indices ≠ []) :
    search.inTarget ((Expr.identifier mapping).indexed indices) =
      ⟨true, (search.record? mapping indices).toList⟩ := by
  cases indices with
  | nil => exact absurd rfl nonempty
  | cons index rest => simp only [inTarget, Expr.indexChain_indexed, if_pos visible]

theorem inTarget_of_forall_not_writesTo (none : ∀ mapping, ¬search.WritesTo target mapping) :
    search.inTarget target = CallableWrites.empty := by
  rw [inTarget]
  split
  next root index rest chain =>
    have spelled := Expr.indexChain_eq_iff.mp chain
    have invisible : root ∉ search.mappings := fun visible =>
      none root ⟨visible, index :: rest, List.cons_ne_nil index rest, spelled⟩
    exact if_neg invisible
  next => rfl

theorem writesMapping_inTarget_iff :
    (search.inTarget target).writesMapping = true ↔ ∃ mapping, search.WritesTo target mapping := by
  constructor
  · intro flagged
    by_contra none
    rw [inTarget_of_forall_not_writesTo (not_exists.mp none)] at flagged
    cases flagged
  · rintro ⟨mapping, visible, indices, nonempty, rfl⟩
    rw [inTarget_indexed visible nonempty]

/-- The record of the write to a target, if there is one. -/
def recordIn? (search : WriteSearch) (target : Expr) : Option MappingWrite :=
  (search.inTarget target).records.head?

theorem records_inTarget (search : WriteSearch) (target : Expr) :
    (search.inTarget target).records = (search.recordIn? target).toList := by
  by_cases writes : ∃ mapping, search.WritesTo target mapping
  · rcases writes with ⟨mapping, visible, indices, nonempty, rfl⟩
    rw [recordIn?, inTarget_indexed visible nonempty]
    cases search.record? mapping indices <;> rfl
  · rw [recordIn?, inTarget_of_forall_not_writesTo (not_exists.mp writes)]
    rfl

theorem recordIn?_eq_some_iff :
    search.recordIn? target = some record ↔ search.Tells target record := by
  constructor
  · intro found
    by_cases writes : ∃ mapping, search.WritesTo target mapping
    · rcases writes with ⟨mapping, visible, indices, nonempty, rfl⟩
      rw [recordIn?, inTarget_indexed visible nonempty, Option.head?_toList] at found
      rcases record?_eq_some_iff.mp found with ⟨keys, told, rfl⟩
      exact ⟨rfl, rfl, visible, indices, keys, nonempty, rfl, told, rfl⟩
    · rw [recordIn?, inTarget_of_forall_not_writesTo (not_exists.mp writes)] at found
      cases found
  · rintro ⟨contractEq, functionEq, visible, indices, keys, nonempty, rfl, told, keyPathEq⟩
    rw [recordIn?, inTarget_indexed visible nonempty, Option.head?_toList]
    refine record?_eq_some_iff.mpr ⟨keys, told, ?_⟩
    rw [← contractEq, ← functionEq] at *
    cases record
    simp_all

/-! ## What is found in a body -/

/-- What is found in a list of targets. -/
def inTargets (search : WriteSearch) (targets : List Expr) : CallableWrites where
  writesMapping := targets.any fun target => (search.inTarget target).writesMapping
  records := targets.filterMap search.recordIn?

theorem inTargets_nil (search : WriteSearch) : search.inTargets [] = CallableWrites.empty := rfl

theorem inTargets_singleton (search : WriteSearch) (target : Expr) :
    search.inTargets [target] = search.inTarget target := by
  have records : [target].filterMap search.recordIn? = (search.inTarget target).records := by
    rw [records_inTarget]
    cases found : search.recordIn? target <;> simp [found]
  simp only [inTargets, records, List.any_cons, List.any_nil, Bool.or_false]

theorem inTargets_append (search : WriteSearch) (targets others : List Expr) :
    search.inTargets (targets ++ others) = search.inTargets targets ++ search.inTargets others := by
  simp only [inTargets, List.any_append, List.filterMap_append]
  rfl

mutual

theorem inStmt_eq_inTargets (search : WriteSearch) :
    (statement : Stmt) → search.inStmt statement = search.inTargets statement.targets
  | .expression (.assignment _ target) => by
      rw [Stmt.targets, inTargets_singleton, inStmt, inExpr]
  | .expression (.indexAccess ..) | .expression (.memberAccess ..) | .expression (.identifier _)
  | .expression (.literal _) | .expression (.other _) => by
      simp [inStmt, inExpr, Stmt.targets, inTargets_nil]
  | .conditional thenBlock none => by
      rw [Stmt.targets, inStmt, inBlock_eq_inTargets search thenBlock]
  | .conditional thenBlock (some elseBlock) => by
      rw [Stmt.targets, inStmt, inTargets_append, inBlock_eq_inTargets search thenBlock,
        inBlock_eq_inTargets search elseBlock]
  | .forLoop body => by rw [Stmt.targets, inStmt, inBlock_eq_inTargets search body]
  | .other _ => by rw [Stmt.targets, inStmt, inTargets_nil]

theorem inBlock_eq_inTargets (search : WriteSearch) :
    (block : Block) → search.inBlock block = search.inTargets (Block.targets block)
  | [] => by rw [Block.targets, inBlock, inTargets_nil]
  | statement :: rest => by
      rw [Block.targets, inBlock, inTargets_append, inStmt_eq_inTargets search statement,
        inBlock_eq_inTargets search rest]

end

end WriteSearch

namespace Callable

variable {definition : Callable} {contract : String} {mappings : NameSet}

/-- The search through a function or modifier. -/
def search (definition : Callable) (contract : String) (mappings : NameSet) : WriteSearch :=
  ⟨contract, mappings, definition.name⟩

theorem writes_eq_inTargets (definition : Callable) (contract : String) (mappings : NameSet) :
    definition.writes contract mappings =
      (definition.search contract mappings).inTargets definition.targets :=
  WriteSearch.inBlock_eq_inTargets _ _

theorem writesMapping_writes_iff :
    (definition.writes contract mappings).writesMapping = true ↔
      ∃ target ∈ definition.targets, ∃ mapping,
        (definition.search contract mappings).WritesTo target mapping := by
  simp [writes_eq_inTargets, WriteSearch.inTargets, WriteSearch.writesMapping_inTarget_iff]

theorem mem_records_writes_iff {record : MappingWrite} :
    record ∈ (definition.writes contract mappings).records ↔
      ∃ target ∈ definition.targets, (definition.search contract mappings).Tells target record := by
  simp [writes_eq_inTargets, WriteSearch.inTargets, WriteSearch.recordIn?_eq_some_iff]

/-- A function or modifier is flagged if it assigns to an element of a visible
mapping.  Its records are, in the order of the assignments and one for each, those
of the elements whose keys can all be told. -/
theorem writes_of_targets (definition : Callable) (contract : String) (mappings : NameSet) :
    ((definition.writes contract mappings).writesMapping = true ↔
      ∃ target ∈ definition.targets, ∃ mapping,
        (definition.search contract mappings).WritesTo target mapping) ∧
    ∃ recordOf : Expr → Option MappingWrite,
      (∀ target record, recordOf target = some record ↔
        (definition.search contract mappings).Tells target record) ∧
      (definition.writes contract mappings).records = definition.targets.filterMap recordOf :=
  ⟨writesMapping_writes_iff, (definition.search contract mappings).recordIn?,
    fun _ _ => WriteSearch.recordIn?_eq_some_iff,
    congrArg CallableWrites.records (writes_eq_inTargets definition contract mappings)⟩

end Callable

end SolidityModel
