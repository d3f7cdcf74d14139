import Mathlib.Data.List.Chain
import Mathlib.Data.List.Nodup
import Mathlib.Data.List.Perm.Subperm
import SolidityModel.Proofs.Inheritance.Cycle

/-!
# Walks that change their path in place

A walk up a hierarchy can hand every call a path of its own, or its calls can share
one path: a contract is pushed before its bases are visited and popped after them,
and a failure leaves the path where it is.  The walks of this module share their
path.  They note every value that it takes, and they may nest only so many levels
of calls, beyond which they have no outcome.

A call that succeeds leaves the path as it found it
(`InheritanceTree.orderInPlace_restores`, `InheritanceTree.countInPlace_restores`).
Whatever cycles there are, no value of the path holds a contract twice, and one
level more than there are contracts with bases is enough to come to the outcome of
the walk with paths of its own (`InheritanceTree.walksInPlace`).
-/

namespace SolidityModel

/-- What the calls of a walk share. -/
structure SharedWalk (σ : Type) where
  /-- The active path. -/
  path : List String
  /-- What has been found so far. -/
  table : σ
  /-- The values of the path, the latest first: at the entry of every call and after
  every push. -/
  history : List (List String)

namespace SharedWalk

variable {σ : Type}

/-- Note the path. -/
def note (walk : SharedWalk σ) : SharedWalk σ :=
  { walk with history := walk.path :: walk.history }

/-- Put a contract on the path, and note the path. -/
def push (walk : SharedWalk σ) (contract : String) : SharedWalk σ :=
  { walk with path := walk.path ++ [contract] }.note

/-- Take the last contract off the path. -/
def pop (walk : SharedWalk σ) : SharedWalk σ :=
  { walk with path := walk.path.dropLast }

/-- Change what has been found. -/
def update (walk : SharedWalk σ) (change : σ → σ) : SharedWalk σ :=
  { walk with table := change walk.table }

/-- Every path that a later state notes and an earlier one did not is of some
kind. -/
def NotesOnly (kind : List String → Prop) (before after : SharedWalk σ) : Prop :=
  ∀ path ∈ after.history, path ∈ before.history ∨ kind path

variable {kind : List String → Prop} {walk before between after : SharedWalk σ}

theorem NotesOnly.trans (first : NotesOnly kind before between)
    (second : NotesOnly kind between after) : NotesOnly kind before after := by
  intro path noted
  rcases second path noted with earlier | isKind
  · exact first path earlier
  · exact .inr isKind

theorem NotesOnly.note (isKind : kind walk.path) : NotesOnly kind walk walk.note := by
  intro path noted
  rcases List.mem_cons.mp noted with rfl | earlier
  · exact .inr isKind
  · exact .inl earlier

theorem NotesOnly.push {contract : String} (isKind : kind (walk.path ++ [contract])) :
    NotesOnly kind walk (walk.push contract) := by
  intro path noted
  rcases List.mem_cons.mp noted with rfl | earlier
  · exact .inr isKind
  · exact .inl earlier

end SharedWalk

/-! ## Visits one after another -/

section Visits

variable {σ α : Type}

/-- The outcome of a call and what it leaves behind, unless the levels of calls do
not suffice. -/
abbrev CallOutcome (σ α : Type) := Option (Except InheritanceError α × SharedWalk σ)

/-- Visit names from left to right up to the first failure. -/
def visitInPlace (visit : String → SharedWalk σ → CallOutcome σ α) :
    List String → SharedWalk σ → CallOutcome σ (List α)
  | [], walk => some (.ok [], walk)
  | name :: rest, walk =>
      match visit name walk with
      | none => none
      | some (.error error, walk) => some (.error error, walk)
      | some (.ok value, walk) =>
          match visitInPlace visit rest walk with
          | none => none
          | some (.error error, walk) => some (.error error, walk)
          | some (.ok values, walk) => some (.ok (value :: values), walk)

/-- A visit that succeeds leaves the path as it found it. -/
def Restores (visit : String → SharedWalk σ → CallOutcome σ α) : Prop :=
  ∀ name walk value after, visit name walk = some (.ok value, after) → after.path = walk.path

/-- What visits one after another make of a table, if a single one does what `single`
tells. -/
inductive InTurn (single : String → σ → Except InheritanceError α → σ → Prop) :
    List String → σ → Except InheritanceError (List α) → σ → Prop where
  | nil {table : σ} : InTurn single [] table (.ok []) table
  | failed {name : String} {rest : List String} {table left : σ} {error : InheritanceError} :
      single name table (.error error) left →
      InTurn single (name :: rest) table (.error error) left
  | failedLater {name : String} {rest : List String} {table next left : σ} {value : α}
      {error : InheritanceError} :
      single name table (.ok value) next → InTurn single rest next (.error error) left →
      InTurn single (name :: rest) table (.error error) left
  | cons {name : String} {rest : List String} {table next left : σ} {value : α}
      {values : List α} :
      single name table (.ok value) next → InTurn single rest next (.ok values) left →
      InTurn single (name :: rest) table (.ok (value :: values)) left

/-- Visits with a memo are visits in turn. -/
theorem InTurn.visitAll_eq
    {visit : String → OrderMemo → Except InheritanceError (List String) × OrderMemo}
    {names : List String} {memo left : OrderMemo}
    {outcome : Except InheritanceError (List (List String))}
    (turn : InTurn (fun name memo outcome left => visit name memo = (outcome, left))
      names memo outcome left) :
    visitAll visit names memo = (outcome, left) := by
  induction turn with
  | nil => rfl
  | failed here => rw [visitAll, here]
  | failedLater here _ ih => rw [visitAll, here]; dsimp only; rw [ih]
  | cons here _ ih => rw [visitAll, here]; dsimp only; rw [ih]

/-- A fold that can fail is visits in turn. -/
theorem InTurn.foldlM_eq {step : σ → String → Except InheritanceError σ} {names : List String}
    {table left : σ} {outcome : Except InheritanceError (List α)}
    (turn : InTurn (fun name table outcome left => step table name = outcome.map fun _ => left)
      names table outcome left) :
    names.foldlM step table = outcome.map fun _ => left := by
  induction turn with
  | nil => rfl
  | failed here => rw [List.foldlM_cons, here]; rfl
  | failedLater here _ ih => rw [List.foldlM_cons, here]; exact ih
  | cons here _ ih => rw [List.foldlM_cons, here]; exact ih

variable {visit : String → SharedWalk σ → CallOutcome σ α} {names : List String}
  {walk after : SharedWalk σ}

/-- Visits that leave the path as they found it do so one after another. -/
theorem Restores.inTurn (restores : Restores visit) {values : List α}
    (visited : visitInPlace visit names walk = some (.ok values, after)) :
    after.path = walk.path := by
  induction names generalizing walk values with
  | nil => cases visited; rfl
  | cons name rest ih =>
      rw [visitInPlace] at visited
      split at visited
      next => cases visited
      next => cases visited
      next value next here =>
        split at visited
        next => cases visited
        next => cases visited
        next others left later =>
          cases visited
          exact (ih later).trans (restores name walk value next here)

/-- Visits from one path have an outcome if each of them has, and note what they
note. -/
theorem exists_visitInPlace (kind : List String → Prop)
    (single : String → σ → Except InheritanceError α → σ → Prop) {path : List String}
    (restores : Restores visit)
    (each : ∀ name ∈ names, ∀ walk : SharedWalk σ, walk.path = path → ∃ outcome after,
      visit name walk = some (outcome, after) ∧ single name walk.table outcome after.table ∧
        SharedWalk.NotesOnly kind walk after)
    (onPath : walk.path = path) :
    ∃ outcome after, visitInPlace visit names walk = some (outcome, after) ∧
      InTurn single names walk.table outcome after.table ∧
        SharedWalk.NotesOnly kind walk after := by
  induction names generalizing walk with
  | nil => exact ⟨.ok [], walk, rfl, .nil, fun _ => .inl⟩
  | cons name rest ih =>
      rcases List.forall_mem_cons.mp each with ⟨first, others⟩
      rcases first walk onPath with ⟨outcome, next, here, does, notes⟩
      cases outcome with
      | error error =>
          exact ⟨.error error, next, by rw [visitInPlace, here], .failed does, notes⟩
      | ok value =>
          have stays : next.path = path := (restores name walk value next here).trans onPath
          rcases ih others stays with ⟨outcome, left, later, further, notesLater⟩
          cases outcome with
          | error error =>
              refine ⟨.error error, left, ?_, .failedLater does further, notes.trans notesLater⟩
              rw [visitInPlace, here]
              dsimp only
              rw [later]
          | ok values =>
              refine ⟨.ok (value :: values), left, ?_, .cons does further, notes.trans notesLater⟩
              rw [visitInPlace, here]
              dsimp only
              rw [later]

end Visits

namespace InheritanceTree

/-! ## The two walks -/

/-- The order of a contract, with at most so many levels of calls. -/
def orderInPlace (tree : InheritanceTree) :
    (levels : Nat) → String → SharedWalk OrderMemo → CallOutcome OrderMemo (List String)
  | 0, _, _ => none
  | levels + 1, contract, walk =>
      match walk.table.get? contract with
      | some order => some (.ok order, walk.note)
      | none =>
          if contract ∈ walk.path then
            some (.error (.cyclic contract (loopThrough contract walk.path)), walk.note)
          else
            match visitInPlace (orderInPlace tree levels) (tree.basesOf contract)
              (walk.note.push contract) with
            | none => none
            | some (.error error, walk) => some (.error error, walk)
            | some (.ok orders, walk) =>
                match merge (orders ++ [tree.basesOf contract]) with
                | .error remaining => some (.error (.inconsistent contract remaining), walk)
                | .ok ancestors =>
                    some (.ok (contract :: ancestors),
                      walk.pop.update (·.insert contract (contract :: ancestors)))

/-- Count one more path to a base, and the paths above it by a call. -/
def countBaseInPlace
    (call : String → SharedWalk (NameMap Nat) → CallOutcome (NameMap Nat) (List Unit))
    (base : String) (walk : SharedWalk (NameMap Nat)) : CallOutcome (NameMap Nat) Unit :=
  if base ∈ walk.path then
    some (.error (.cyclic base (loopThrough base walk.path)), walk)
  else
    match call base ((walk.update (countPath · base)).push base) with
    | none => none
    | some (.error error, walk) => some (.error error, walk)
    | some (.ok _, walk) => some (.ok (), walk.pop)

/-- Count the paths to the ancestors of the contract at the end of the path, with at
most so many levels of calls. -/
def countInPlace (tree : InheritanceTree) :
    (levels : Nat) → String → SharedWalk (NameMap Nat) → CallOutcome (NameMap Nat) (List Unit)
  | 0, _, _ => none
  | levels + 1, contract, walk =>
      visitInPlace (countBaseInPlace (countInPlace tree levels)) (tree.basesOf contract) walk.note

variable {tree : InheritanceTree} {start contract base : String} {path : List String}
  {levels : Nat}

/-! ## The path after a call -/

/-- A call that finds an order leaves the path as it found it. -/
theorem orderInPlace_restores (tree : InheritanceTree) (levels : Nat) :
    Restores (tree.orderInPlace levels) := by
  induction levels with
  | zero => intro contract walk order after found; cases found
  | succ levels ih =>
      intro contract walk order after found
      rw [orderInPlace] at found
      split at found
      next => cases found; rfl
      next =>
        split at found
        next => cases found
        next =>
          split at found
          next => cases found
          next => cases found
          next orders left visited =>
            have stays : left.path = walk.path ++ [contract] := ih.inTurn visited
            split at found
            next => cases found
            next =>
              cases found
              change left.path.dropLast = walk.path
              rw [stays, List.dropLast_concat]

theorem countBaseInPlace_restores
    {call : String → SharedWalk (NameMap Nat) → CallOutcome (NameMap Nat) (List Unit)}
    (restores : Restores call) : Restores (countBaseInPlace call) := by
  intro base walk counted after found
  rw [countBaseInPlace] at found
  split at found
  next => cases found
  next =>
    split at found
    next => cases found
    next => cases found
    next above left called =>
      cases found
      change left.path.dropLast = walk.path
      rw [restores base _ above left called]
      exact List.dropLast_concat

/-- A call that counts all paths leaves the path as it found it. -/
theorem countInPlace_restores (tree : InheritanceTree) (levels : Nat) :
    Restores (tree.countInPlace levels) := by
  induction levels with
  | zero => intro contract walk counted after found; cases found
  | succ levels ih =>
      intro contract walk counted after found
      rw [countInPlace] at found
      change after.path = walk.note.path
      exact (countBaseInPlace_restores ih).inTurn found

/-! ## The values of the path -/

/-- A path without repetitions from a start through bases.  All of it but its end
declares bases. -/
structure IsTrail (tree : InheritanceTree) (start : String) (path : List String) : Prop where
  nodup : path.Nodup
  chain : path.IsChain fun derived base => base ∈ tree.basesOf derived
  start : ∀ first ∈ path.head?, first = start
  declares : ∀ name ∈ path.dropLast, tree.basesOf name ≠ []

/-- A path without repetitions from a start to one of the contracts that declare a
base. -/
structure LeadsTo (tree : InheritanceTree) (start : String) (path : List String)
    (contract : String) : Prop where
  nodup : path.Nodup
  chain : (path ++ [contract]).IsChain fun derived base => base ∈ tree.basesOf derived
  start : ∀ first ∈ (path ++ [contract]).head?, first = start

/-- The empty path leads to the start. -/
theorem LeadsTo.nil (tree : InheritanceTree) (start : String) : tree.LeadsTo start [] start :=
  ⟨List.nodup_nil, List.isChain_singleton start, by simp⟩

/-- In a chain of bases every contract but the last declares a base, the next one. -/
theorem basesOf_ne_nil_of_isChain
    (chain : path.IsChain fun derived base => base ∈ tree.basesOf derived) :
    ∀ name ∈ path.dropLast, tree.basesOf name ≠ [] := by
  induction path with
  | nil => simp
  | cons derived rest ih =>
      cases rest with
      | nil => simp
      | cons base rest =>
          rcases List.isChain_cons_cons.mp chain with ⟨isBase, further⟩
          rw [List.dropLast_cons_cons]
          exact List.forall_mem_cons.mpr ⟨List.ne_nil_of_mem isBase, ih further⟩

theorem IsTrail.of_isChain (nodup : path.Nodup)
    (chain : path.IsChain fun derived base => base ∈ tree.basesOf derived)
    (starts : ∀ first ∈ path.head?, first = start) : tree.IsTrail start path :=
  ⟨nodup, chain, starts, basesOf_ne_nil_of_isChain chain⟩

theorem LeadsTo.isTrail (leads : tree.LeadsTo start path contract) : tree.IsTrail start path := by
  refine .of_isChain leads.nodup leads.chain.left_of_append fun first isFirst => ?_
  exact leads.start first (List.mem_head?_append_of_mem_head? isFirst)

theorem LeadsTo.isTrail_concat (leads : tree.LeadsTo start path contract)
    (fresh : contract ∉ path) : tree.IsTrail start (path ++ [contract]) :=
  .of_isChain (List.nodup_append.mpr ⟨leads.nodup, List.nodup_singleton contract, by grind⟩)
    leads.chain leads.start

/-- A path that leads to a contract leads on to its bases, unless it holds the
contract. -/
theorem LeadsTo.concat (leads : tree.LeadsTo start path contract) (fresh : contract ∉ path)
    (isBase : base ∈ tree.basesOf contract) :
    tree.LeadsTo start (path ++ [contract]) base := by
  refine ⟨(leads.isTrail_concat fresh).nodup, ?_, ?_⟩
  · refine leads.chain.append (List.isChain_singleton base) ?_
    simpa using isBase
  · simpa using leads.start

/-- The contracts with bases. -/
def declaring (tree : InheritanceTree) : List String :=
  tree.contracts.filter fun contract => tree.basesOf contract ≠ []

theorem mem_declaring_iff : contract ∈ tree.declaring ↔ tree.basesOf contract ≠ [] := by
  rw [declaring, List.mem_filter, decide_eq_true_eq, and_iff_right_iff_imp]
  exact mem_contracts_of_basesOf

/-- A path that leads on is no longer than there are contracts with bases. -/
theorem LeadsTo.length_le (leads : tree.LeadsTo start path contract) :
    path.length ≤ tree.declaring.length := by
  have declares : path ⊆ tree.declaring := by
    intro name member
    apply mem_declaring_iff.mpr
    apply basesOf_ne_nil_of_isChain leads.chain
    rwa [List.dropLast_concat]
  exact (List.subperm_of_subset leads.nodup declares).length_le

/-! ## The outcome of a call -/

/-- Once the bases have been visited, a call goes on like one with a path of its
own. -/
theorem exists_orderInPlace_of_visited {walk left : SharedWalk OrderMemo}
    {visits : Except InheritanceError (List (List String))}
    (absent : walk.table.get? contract = none) (fresh : contract ∉ walk.path)
    (visited : visitInPlace (tree.orderInPlace levels) (tree.basesOf contract)
      (walk.note.push contract) = some (visits, left))
    (alike : visitAll (tree.orderFrom (walk.path ++ [contract])) (tree.basesOf contract)
      walk.table = (visits, left.table)) :
    ∃ outcome after, tree.orderInPlace (levels + 1) contract walk = some (outcome, after) ∧
      tree.orderFrom walk.path contract walk.table = (outcome, after.table) ∧
      after.history = left.history := by
  rw [orderInPlace, orderFrom_of_not_mem absent fresh, absent, alike]
  dsimp only
  rw [if_neg fresh, visited]
  cases visits with
  | error error => exact ⟨_, _, rfl, rfl, rfl⟩
  | ok orders =>
      dsimp only
      cases merge (orders ++ [tree.basesOf contract]) with
      | error remaining => exact ⟨_, _, rfl, rfl, rfl⟩
      | ok ancestors => exact ⟨_, _, rfl, rfl, rfl⟩

/-- A call comes to the order that a walk with a path of its own comes to, and to the
same memo. -/
theorem exists_orderInPlace {walk : SharedWalk OrderMemo}
    (leads : tree.LeadsTo start walk.path contract)
    (enough : tree.declaring.length < levels + walk.path.length) :
    ∃ outcome after, tree.orderInPlace levels contract walk = some (outcome, after) ∧
      tree.orderFrom walk.path contract walk.table = (outcome, after.table) ∧
      walk.NotesOnly (tree.IsTrail start) after := by
  induction levels generalizing contract walk with
  | zero => exact absurd leads.length_le (by omega)
  | succ levels ih =>
      have noted : walk.NotesOnly (tree.IsTrail start) walk.note := .note leads.isTrail
      cases entered : walk.table.get? contract with
      | some order =>
          refine ⟨.ok order, walk.note, ?_, orderFrom_of_get? entered, noted⟩
          rw [orderInPlace, entered]
      | none =>
          by_cases onPath : contract ∈ walk.path
          · refine ⟨_, walk.note, ?_, orderFrom_of_mem entered onPath, noted⟩
            rw [orderInPlace, entered]
            exact if_pos onPath
          · have pushed : walk.NotesOnly (tree.IsTrail start) (walk.note.push contract) :=
              noted.trans (.push (leads.isTrail_concat onPath))
            have visitsBase : ∀ base ∈ tree.basesOf contract, ∀ next : SharedWalk OrderMemo,
                next.path = walk.path ++ [contract] → ∃ outcome after,
                  tree.orderInPlace levels base next = some (outcome, after) ∧
                  tree.orderFrom (walk.path ++ [contract]) base next.table =
                    (outcome, after.table) ∧ next.NotesOnly (tree.IsTrail start) after := by
              intro base isBase next isPath
              rw [← isPath]
              refine ih ?_ ?_ <;> rw [isPath]
              · exact leads.concat onPath isBase
              · simp only [List.length_append, List.length_singleton]
                omega
            have atPush : (walk.note.push contract).path = walk.path ++ [contract] := rfl
            rcases exists_visitInPlace (tree.IsTrail start)
              (fun base memo outcome left =>
                tree.orderFrom (walk.path ++ [contract]) base memo = (outcome, left))
              (orderInPlace_restores tree levels) visitsBase atPush with
              ⟨visits, left, visited, turn, notes⟩
            rcases exists_orderInPlace_of_visited entered onPath visited turn.visitAll_eq with
              ⟨outcome, after, found, alike, history⟩
            refine ⟨outcome, after, found, alike, ?_⟩
            rw [SharedWalk.NotesOnly, history]
            exact pushed.trans notes

/-- A base adds to the count what it adds on a path of its own, if the call for it
does. -/
theorem exists_countBaseInPlace
    {call : String → SharedWalk (NameMap Nat) → CallOutcome (NameMap Nat) (List Unit)}
    {walk : SharedWalk (NameMap Nat)}
    (trail : base ∉ walk.path → tree.IsTrail start (walk.path ++ [base]))
    (calls : base ∉ walk.path → ∀ inside : SharedWalk (NameMap Nat),
      inside.path = walk.path ++ [base] → ∃ outcome after,
        call base inside = some (outcome, after) ∧
        tree.countPathsFrom walk.path base inside.table = outcome.map (fun _ => after.table) ∧
        inside.NotesOnly (tree.IsTrail start) after) :
    ∃ outcome after, countBaseInPlace call base walk = some (outcome, after) ∧
      tree.countPathsFrom walk.path base (countPath walk.table base) =
        outcome.map (fun _ => after.table) ∧
      walk.NotesOnly (tree.IsTrail start) after := by
  rw [countBaseInPlace]
  by_cases closes : base ∈ walk.path
  · rw [if_pos closes, countPathsFrom_of_mem closes]
    exact ⟨_, walk, rfl, rfl, fun _ => .inl⟩
  · rw [if_neg closes]
    let counting := walk.update (countPath · base)
    have pushed : walk.NotesOnly (tree.IsTrail start) (counting.push base) :=
      .push (trail closes)
    rcases calls closes (counting.push base) rfl with ⟨outcome, after, called, alike, notes⟩
    rw [called]
    cases outcome with
    | error error => exact ⟨_, after, rfl, alike, pushed.trans notes⟩
    | ok counted => exact ⟨_, after.pop, rfl, alike, pushed.trans notes⟩

/-- A call for the end of the path counts what a walk with a path of its own
counts. -/
theorem exists_countInPlace {walk : SharedWalk (NameMap Nat)}
    (onPath : walk.path = path ++ [contract]) (leads : tree.LeadsTo start path contract)
    (fresh : contract ∉ path) (enough : tree.declaring.length < levels + path.length) :
    ∃ outcome after, tree.countInPlace levels contract walk = some (outcome, after) ∧
      tree.countPathsFrom path contract walk.table = outcome.map (fun _ => after.table) ∧
      walk.NotesOnly (tree.IsTrail start) after := by
  induction levels generalizing contract path walk with
  | zero => exact absurd leads.length_le (by omega)
  | succ levels ih =>
      have noted : walk.NotesOnly (tree.IsTrail start) walk.note :=
        .note (onPath ▸ leads.isTrail_concat fresh)
      have countsBase : ∀ base ∈ tree.basesOf contract, ∀ next : SharedWalk (NameMap Nat),
          next.path = path ++ [contract] → ∃ outcome after,
            countBaseInPlace (tree.countInPlace levels) base next = some (outcome, after) ∧
            tree.countPathsFrom (path ++ [contract]) base (countPath next.table base) =
              outcome.map (fun _ => after.table) ∧ next.NotesOnly (tree.IsTrail start) after := by
        intro base isBase next isPath
        have leadsOn := leads.concat fresh isBase
        have enoughLeft : tree.declaring.length < levels + (path ++ [contract]).length := by
          simp only [List.length_append, List.length_singleton]
          omega
        rw [← isPath] at leadsOn enoughLeft ⊢
        exact exists_countBaseInPlace leadsOn.isTrail_concat
          fun closes inside isInside => ih isInside leadsOn closes enoughLeft
      have atEntry : walk.note.path = path ++ [contract] := onPath
      rcases exists_visitInPlace (tree.IsTrail start)
        (fun base counts outcome left =>
          tree.countPathsFrom (path ++ [contract]) base (countPath counts base) =
            outcome.map fun _ => left)
        (countBaseInPlace_restores (countInPlace_restores tree levels)) countsBase atEntry with
        ⟨outcome, after, visited, turn, notes⟩
      refine ⟨outcome, after, visited, ?_, noted.trans notes⟩
      rw [countPathsFrom_of_not_mem fresh]
      exact turn.foldlM_eq

/-! ## Walks from a start -/

/-- What a walk finds begins with the contract it is for, also when earlier walks have
filled the memo. -/
theorem exists_eq_cons_of_orderFrom {earlier order : List String}
    (found : (tree.orderFrom [] start (tree.linearizeAll earlier).2).1 = .ok order) :
    ∃ ancestors, order = start :: ancestors := by
  have sound := (linearizeAll_tabulates tree earlier).2
  rw [(orderFrom_nil_answers start sound).eq] at found
  exact (hasOrder_of_orderOnPath found).1.exists_eq_cons

/-- What holds of the walks from a start: that they come to an end within the levels,
what their path is like, and that it is restored. -/
structure WalksInPlace (tree : InheritanceTree) (start : String) : Prop where
  /-- One level more than there are contracts with bases is enough to order the
  ancestors, whatever the memo holds, and the path is a trail in every call. -/
  orders : ∀ memo, ∃ outcome after,
    tree.orderInPlace (tree.declaring.length + 1) start ⟨[], memo, []⟩ = some (outcome, after) ∧
      tree.orderFrom [] start memo = (outcome, after.table) ∧
      ∀ path ∈ after.history, tree.IsTrail start path
  /-- As many levels are enough to count the paths, and the path is a trail in every
  call. -/
  counts : ∀ counts, ∃ outcome after,
    tree.countInPlace (tree.declaring.length + 1) start ⟨[start], counts, []⟩ =
        some (outcome, after) ∧
      tree.countPathsFrom [] start counts = outcome.map (fun _ => after.table) ∧
      ∀ path ∈ after.history, tree.IsTrail start path
  /-- Every call that succeeds leaves the path as it found it. -/
  orderRestores : ∀ levels, Restores (tree.orderInPlace levels)
  countRestores : ∀ levels, Restores (tree.countInPlace levels)
  /-- There is a contract to take off an order, also with the memo of the walks for
  other contracts. -/
  takesOff : ∀ earlier order,
    (tree.orderFrom [] start (tree.linearizeAll earlier).2).1 = .ok order →
      ∃ ancestors, order = start :: ancestors

/-- The guards against cycles keep the path of every walk a trail, so that every walk
ends. -/
theorem walksInPlace (tree : InheritanceTree) (start : String) : tree.WalksInPlace start where
  orders := by
    intro memo
    let first : SharedWalk OrderMemo := ⟨[], memo, []⟩
    have leads : tree.LeadsTo start first.path start := .nil tree start
    rcases exists_orderInPlace leads (Nat.lt_succ_self _) with
      ⟨outcome, after, found, alike, notes⟩
    exact ⟨outcome, after, found, alike,
      fun path noted => (notes path noted).resolve_left List.not_mem_nil⟩
  counts := by
    intro counts
    let first : SharedWalk (NameMap Nat) := ⟨[start], counts, []⟩
    have atStart : first.path = [] ++ [start] := rfl
    rcases exists_countInPlace atStart (.nil tree start) List.not_mem_nil (Nat.lt_succ_self _) with
      ⟨outcome, after, found, alike, notes⟩
    exact ⟨outcome, after, found, alike,
      fun path noted => (notes path noted).resolve_left List.not_mem_nil⟩
  orderRestores := orderInPlace_restores tree
  countRestores := countInPlace_restores tree
  takesOff _ _ := exists_eq_cons_of_orderFrom

/-- Two contracts that inherit from each other, and a vault with a base. -/
def loopTree : InheritanceTree :=
  ⟨NameMap.ofList [("Left", ["Right"]), ("Right", ["Left"]), ("Vault", ["Ledger"])]⟩

/-- The cycle shows in the third level of calls, and no path in front of it holds a
contract twice.  The walk from the vault ends with the empty path that it began with. -/
theorem loopTree_walksInPlace :
    (∃ after, loopTree.orderInPlace (loopTree.declaring.length + 1) "Left" ⟨[], .empty, []⟩ =
        some (.error (.cyclic "Left" ["Left", "Right", "Left"]), after) ∧
      after.history = [["Left", "Right"], ["Left", "Right"], ["Left"], ["Left"], []] ∧
      ∀ path ∈ after.history, loopTree.IsTrail "Left" path) ∧
    ∃ after, loopTree.orderInPlace (loopTree.declaring.length + 1) "Vault" ⟨[], .empty, []⟩ =
        some (.ok ["Vault", "Ledger"], after) ∧
      after.path = [] ∧ ∃ ancestors, ["Vault", "Ledger"] = "Vault" :: ancestors := by
  constructor
  · rcases (walksInPlace loopTree "Left").orders .empty with ⟨outcome, after, found, -, trails⟩
    have evaluated : (loopTree.orderInPlace (loopTree.declaring.length + 1) "Left"
        ⟨[], .empty, []⟩).map (fun result => (result.1, result.2.history)) =
          some (.error (.cyclic "Left" ["Left", "Right", "Left"]),
            [["Left", "Right"], ["Left", "Right"], ["Left"], ["Left"], []]) := by
      decide +kernel
    rw [found, Option.map_some, Option.some.injEq, Prod.mk.injEq] at evaluated
    rcases evaluated with ⟨rfl, history⟩
    exact ⟨after, found, history, trails⟩
  · have walks := walksInPlace loopTree "Vault"
    rcases walks.orders .empty with ⟨outcome, after, found, alike, -⟩
    have evaluated : (loopTree.orderInPlace (loopTree.declaring.length + 1) "Vault"
        ⟨[], .empty, []⟩).map Prod.fst = some (.ok ["Vault", "Ledger"]) := by
      decide +kernel
    rw [found, Option.map_some, Option.some.injEq] at evaluated
    cases evaluated
    have ordered : (loopTree.orderFrom [] "Vault" (loopTree.linearizeAll []).2).1 =
        .ok ["Vault", "Ledger"] := congrArg Prod.fst alike
    exact ⟨after, found, walks.orderRestores _ _ _ _ _ found, walks.takesOff [] _ ordered⟩

end InheritanceTree

end SolidityModel
