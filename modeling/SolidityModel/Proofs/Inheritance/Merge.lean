import Mathlib.Data.List.Forall2
import Mathlib.Data.List.Infix
import SolidityModel.Inheritance.Merge

/-!
# What a merge finds

A merge of sequences looks for an order that names nothing twice and contains
every sequence.  It finds one wherever one exists (`exists_merge_eq_ok`), so that
taking the first free head is no restriction, and where it is stuck the sequences
that it leaves show why: each of their heads waits behind another head
(`Stuck`).  Sequences that share no name it lays one behind the other
(`merge_eq_flatten`).
-/

namespace SolidityModel

/-- An order that names nothing twice and contains every sequence of a list. -/
structure CommonOrder (sequences : List (List String)) (order : List String) : Prop where
  nodup : order.Nodup
  contains : ∀ sequence ∈ sequences, sequence.Sublist order

/-- What is left of sequences when no head can come next. -/
structure Stuck (sequences remaining : List (List String)) : Prop where
  ne_nil : remaining ≠ []
  nonempty : ∀ sequence ∈ remaining, sequence ≠ []
  /-- What is left are ends of different sequences, in the order in which these
  stand. -/
  suffixes : List.SublistForall₂ (· <:+ ·) remaining sequences
  /-- Every head also stands in a tail. -/
  blocked : ∀ sequence ∈ remaining, ∀ name, sequence.head? = some name →
    ∃ other ∈ remaining, name ∈ other.tail

variable {sequences remaining : List (List String)} {sequence names order : List String}
  {name : String}

/-! ## The next name -/

theorem mem_nonempty :
    sequence ∈ nonempty sequences ↔ sequence ∈ sequences ∧ sequence ≠ [] := by
  simp [nonempty]

theorem not_mem_tail_of_nextName? (next : nextName? sequences = some name) :
    ∀ sequence ∈ sequences, name ∉ sequence.tail := by
  have free := List.find?_some next
  simpa using free

theorem exists_head_of_nextName? (next : nextName? sequences = some name) :
    ∃ sequence ∈ sequences, sequence.head? = some name :=
  List.mem_filterMap.mp (List.mem_of_find?_eq_some next)

theorem nextName?_eq_none_iff :
    nextName? sequences = none ↔
      ∀ sequence ∈ sequences, ∀ name, sequence.head? = some name →
        ∃ other ∈ sequences, name ∈ other.tail := by
  simp only [nextName?, List.find?_eq_none, List.mem_filterMap, List.all_eq_true,
    decide_eq_true_eq, forall_exists_index, and_imp, not_forall, Decidable.not_not,
    exists_prop]
  exact ⟨fun blocked sequence member name isHead => blocked name sequence member isHead,
    fun blocked name sequence member isHead => blocked sequence member name isHead⟩

/-- The first name of a common order that is a head stands in no tail. -/
theorem exists_free_head (common : CommonOrder sequences order) (sequencesNe : sequences ≠ [])
    (nonempty : ∀ sequence ∈ sequences, sequence ≠ []) :
    ∃ sequence ∈ sequences, ∃ name, sequence.head? = some name ∧
      ∀ other ∈ sequences, name ∉ other.tail := by
  induction order with
  | nil =>
      rcases List.exists_mem_of_ne_nil sequences sequencesNe with ⟨sequence, member⟩
      exact absurd (List.sublist_nil.mp (common.contains sequence member))
        (nonempty sequence member)
  | cons first rest ih =>
      rcases List.nodup_cons.mp common.nodup with ⟨firstFresh, restNodup⟩
      by_cases isHead : ∃ sequence ∈ sequences, sequence.head? = some first
      · rcases isHead with ⟨sequence, member, headEq⟩
        refine ⟨sequence, member, first, headEq, ?_⟩
        intro other otherMember inTail
        exact firstFresh ((common.contains other otherMember).tail.subset inTail)
      · apply ih
        refine ⟨restNodup, ?_⟩
        intro sequence member
        -- No sequence begins with the first name, so none of them uses it.
        rcases List.sublist_cons_iff.mp (common.contains sequence member) with
          inRest | ⟨others, rfl, _⟩
        · exact inRest
        · exact absurd ⟨_, member, rfl⟩ isHead

/-! ## Taking a name off the sequences -/

theorem dropHead_suffix (name : String) (sequence : List String) :
    dropHead name sequence <:+ sequence := by
  cases sequence with
  | nil => exact List.suffix_rfl
  | cons head rest =>
      rw [dropHead]
      split
      · exact List.suffix_cons head rest
      · exact List.suffix_rfl

theorem not_mem_dropHead (free : name ∉ sequence.tail) : name ∉ dropHead name sequence := by
  cases sequence with
  | nil => simp [dropHead]
  | cons head rest =>
      rw [dropHead]
      split
      next => exact free
      next different =>
        simp only [List.mem_cons, not_or]
        exact ⟨Ne.symm different, free⟩

theorem sublist_cons_of_dropHead (dropped : (dropHead name sequence).Sublist order) :
    sequence.Sublist (name :: order) := by
  cases sequence with
  | nil => exact List.nil_sublist _
  | cons head rest =>
      rw [dropHead] at dropped
      split at dropped
      next equal => exact equal ▸ dropped.cons_cons head
      next => exact dropped.cons name

/-- What is left of sequences once a name is taken off them. -/
abbrev afterName (name : String) (sequences : List (List String)) : List (List String) :=
  (nonempty sequences).map (dropHead name)

theorem not_mem_afterName (next : nextName? (nonempty sequences) = some name) :
    ∀ sequence ∈ afterName name sequences, name ∉ sequence := by
  intro sequence member
  rcases List.mem_map.mp member with ⟨original, originalMember, rfl⟩
  exact not_mem_dropHead (not_mem_tail_of_nextName? next original originalMember)

/-! ## The steps of a merge -/

theorem eq_nil_of_used_up (empty : nonempty sequences = []) (member : sequence ∈ sequences) :
    sequence = [] := by
  have notKept : sequence ∉ nonempty sequences := empty ▸ List.not_mem_nil
  exact Decidable.not_not.mp fun sequenceNe => notKept (mem_nonempty.mpr ⟨member, sequenceNe⟩)

theorem merge_of_used_up (empty : nonempty sequences = []) :
    merge sequences = .ok [] := by
  rw [merge, if_pos (List.isEmpty_iff.mpr empty)]

theorem merge_of_nextName?_eq_none (nonemptyNe : nonempty sequences ≠ [])
    (stuck : nextName? (nonempty sequences) = none) :
    merge sequences = .error (nonempty sequences) := by
  rw [merge, if_neg (mt List.isEmpty_iff.mp nonemptyNe)]
  split
  next => rfl
  next name next => rw [stuck] at next; cases next

theorem merge_of_nextName? (next : nextName? (nonempty sequences) = some name) :
    merge sequences = (merge (afterName name sequences)).map (name :: ·) := by
  have nonemptyNe : ¬(nonempty sequences).isEmpty := fun empty => by
    rw [List.isEmpty_iff.mp empty] at next
    cases next
  rw [merge, if_neg nonemptyNe]
  split
  next stuck => rw [stuck] at next; cases next
  next other found =>
    have same : other = name := Option.some.inj (found.symm.trans next)
    subst same
    cases merge (afterName other sequences) <;> rfl

theorem merge_eq_ok_of_nextName? (next : nextName? (nonempty sequences) = some name)
    (merged : merge sequences = .ok names) :
    ∃ rest, names = name :: rest ∧ merge (afterName name sequences) = .ok rest := by
  rw [merge_of_nextName? next] at merged
  cases later : merge (afterName name sequences) with
  | error remaining => rw [later] at merged; cases merged
  | ok rest => rw [later] at merged; cases merged; exact ⟨rest, rfl, rfl⟩

theorem merge_eq_error_of_nextName? (next : nextName? (nonempty sequences) = some name)
    (failed : merge sequences = .error remaining) :
    merge (afterName name sequences) = .error remaining := by
  rw [merge_of_nextName? next] at failed
  cases later : merge (afterName name sequences) with
  | error remaining => rw [later] at failed; cases failed; rfl
  | ok rest => rw [later] at failed; cases failed

/-- Every merge is used up at once, stuck at once, or takes a first name off. -/
theorem merge_induction {motive : List (List String) → Prop}
    (usedUp : ∀ sequences, nonempty sequences = [] → motive sequences)
    (stuck : ∀ sequences, nonempty sequences ≠ [] →
      nextName? (nonempty sequences) = none → motive sequences)
    (step : ∀ sequences name, nextName? (nonempty sequences) = some name →
      motive (afterName name sequences) → motive sequences)
    (sequences : List (List String)) : motive sequences := by
  refine merge.induct motive ?usedUp ?stuck ?ok ?error sequences
  case usedUp =>
    intro sequences remaining empty
    exact usedUp sequences (List.isEmpty_iff.mp empty)
  case stuck =>
    intro sequences remaining remainingNe none
    exact stuck sequences (mt List.isEmpty_iff.mpr remainingNe) none
  case ok =>
    intro sequences remaining remainingNe name next names later ih
    exact step sequences name next ih
  case error =>
    intro sequences remaining remainingNe name next left later ih
    exact step sequences name next ih

/-! ## Soundness -/

/-- The names of a merge are the names of its sequences. -/
theorem mem_merge_iff (merged : merge sequences = .ok names) (name : String) :
    name ∈ names ↔ ∃ sequence ∈ sequences, name ∈ sequence := by
  induction sequences using merge_induction generalizing names with
  | usedUp sequences empty =>
      rw [merge_of_used_up empty] at merged
      cases merged
      constructor
      · intro member
        cases member
      · rintro ⟨sequence, member, inSequence⟩
        exact absurd (eq_nil_of_used_up empty member) (List.ne_nil_of_mem inSequence)
  | stuck sequences nonemptyNe none =>
      rw [merge_of_nextName?_eq_none nonemptyNe none] at merged
      cases merged
  | step sequences first next ih =>
      rcases merge_eq_ok_of_nextName? next merged with ⟨rest, rfl, later⟩
      rw [List.mem_cons, ih later]
      constructor
      · rintro (rfl | ⟨sequence, member, inSequence⟩)
        · rcases exists_head_of_nextName? next with ⟨sequence, member, isHead⟩
          exact ⟨sequence, (mem_nonempty.mp member).1, List.mem_of_mem_head? isHead⟩
        · rcases List.mem_map.mp member with ⟨original, originalMember, rfl⟩
          exact ⟨original, (mem_nonempty.mp originalMember).1,
            (dropHead_suffix first original).subset inSequence⟩
      · rintro ⟨sequence, member, inSequence⟩
        rcases List.mem_cons.mp ((sublist_cons_of_dropHead (.refl _)).subset inSequence) with
          equal | inRest
        · exact .inl equal
        · have kept : sequence ∈ nonempty sequences :=
            mem_nonempty.mpr ⟨member, List.ne_nil_of_mem inSequence⟩
          exact .inr ⟨dropHead first sequence, List.mem_map_of_mem kept, inRest⟩

/-- A merge finds a common order of its sequences. -/
theorem commonOrder_of_merge (merged : merge sequences = .ok names) :
    CommonOrder sequences names := by
  induction sequences using merge_induction generalizing names with
  | usedUp sequences empty =>
      rw [merge_of_used_up empty] at merged
      cases merged
      exact ⟨.nil, fun sequence member => eq_nil_of_used_up empty member ▸ .refl []⟩
  | stuck sequences nonemptyNe none =>
      rw [merge_of_nextName?_eq_none nonemptyNe none] at merged
      cases merged
  | step sequences first next ih =>
      rcases merge_eq_ok_of_nextName? next merged with ⟨rest, rfl, later⟩
      rcases ih later with ⟨restNodup, restContains⟩
      constructor
      · apply List.nodup_cons.mpr
        refine ⟨?_, restNodup⟩
        intro member
        rcases (mem_merge_iff later first).mp member with ⟨sequence, sequenceMember, inSequence⟩
        exact not_mem_afterName next sequence sequenceMember inSequence
      · intro sequence member
        by_cases empty : sequence = []
        · exact empty ▸ List.nil_sublist _
        · have kept : sequence ∈ nonempty sequences := mem_nonempty.mpr ⟨member, empty⟩
          exact sublist_cons_of_dropHead (restContains _ (List.mem_map_of_mem kept))

/-! ## Completeness -/

theorem CommonOrder.nonempty (common : CommonOrder sequences order) :
    CommonOrder (nonempty sequences) order :=
  ⟨common.nodup, fun sequence member => common.contains sequence (mem_nonempty.mp member).1⟩

theorem CommonOrder.afterName (common : CommonOrder sequences order) (name : String) :
    CommonOrder (afterName name sequences) order := by
  refine ⟨common.nodup, ?_⟩
  intro sequence member
  rcases List.mem_map.mp member with ⟨original, originalMember, rfl⟩
  exact (dropHead_suffix name original).sublist.trans
    (common.nonempty.contains original originalMember)

/-- A merge of sequences with a common order is never stuck. -/
theorem exists_merge_eq_ok (common : CommonOrder sequences order) :
    ∃ names, merge sequences = .ok names := by
  induction sequences using merge_induction with
  | usedUp sequences empty => exact ⟨[], merge_of_used_up empty⟩
  | stuck sequences nonemptyNe none =>
      have eachNe : ∀ sequence ∈ nonempty sequences, sequence ≠ [] :=
        fun sequence member => (mem_nonempty.mp member).2
      rcases exists_free_head common.nonempty nonemptyNe eachNe with
        ⟨sequence, member, name, isHead, free⟩
      rcases nextName?_eq_none_iff.mp none sequence member name isHead with
        ⟨other, otherMember, inTail⟩
      exact absurd inTail (free other otherMember)
  | step sequences first next ih =>
      rcases ih (common.afterName first) with ⟨rest, later⟩
      exact ⟨first :: rest, by rw [merge_of_nextName? next, later]; rfl⟩

/-! ## Sequences without a common name -/

theorem filterMap_head?_nonempty (sequences : List (List String)) :
    (nonempty sequences).filterMap List.head? = sequences.filterMap List.head? := by
  rw [nonempty, List.filterMap_filter]
  refine List.filterMap_congr fun sequence _ => ?_
  cases sequence <;> rfl

/-- The first head of all is next if it stands in no tail. -/
theorem nextName?_of_head? (first : sequences.flatten.head? = some name)
    (free : ∀ sequence ∈ sequences, name ∉ sequence.tail) :
    nextName? (nonempty sequences) = some name := by
  rw [List.head?_flatten, ← List.head?_filterMap] at first
  rcases List.head?_eq_some_iff.mp first with ⟨heads, split⟩
  rw [nextName?, filterMap_head?_nonempty, split, List.find?_cons_of_pos]
  rw [List.all_eq_true]
  intro sequence member
  exact decide_eq_true (free sequence (mem_nonempty.mp member).1)

theorem dropHead_of_not_mem (absent : name ∉ sequence) : dropHead name sequence = sequence := by
  cases sequence with
  | nil => rfl
  | cons head rest =>
      rw [dropHead, if_neg]
      rintro rfl
      exact absent List.mem_cons_self

/-- What is left of a part of an order once the first name is taken off both. -/
theorem dropHead_sublist (kept : sequence.Sublist (name :: order)) :
    (dropHead name sequence).Sublist order := by
  rcases List.sublist_cons_iff.mp kept with inRest | ⟨others, rfl, inRest⟩
  · exact (dropHead_suffix name sequence).sublist.trans inRest
  · rwa [dropHead, if_pos rfl]

theorem afterName_append (name : String) (sequences others : List (List String)) :
    afterName name (sequences ++ others) = afterName name sequences ++ afterName name others := by
  simp only [afterName, nonempty, List.filter_append, List.map_append]

/-- Taking the first name off sequences without a common name leaves the others. -/
theorem flatten_afterName (flat : sequences.flatten = name :: names) (fresh : name ∉ names) :
    (afterName name sequences).flatten = names := by
  have flatNonempty : (nonempty sequences).flatten = name :: names :=
    List.flatten_filter_not_isEmpty.trans flat
  have eachNe : ∀ sequence ∈ nonempty sequences, sequence ≠ [] := fun sequence member =>
    (mem_nonempty.mp member).2
  rw [afterName]
  cases kept : nonempty sequences with
  | nil => rw [kept] at flatNonempty; cases flatNonempty
  | cons sequence rest =>
      rw [kept] at flatNonempty eachNe
      cases sequence with
      | nil => exact absurd rfl (eachNe [] List.mem_cons_self)
      | cons head others =>
          rw [List.flatten_cons, List.cons_append, List.cons.injEq] at flatNonempty
          rcases flatNonempty with ⟨rfl, rfl⟩
          rw [List.mem_append, not_or] at fresh
          have unchanged : rest.map (dropHead head) = rest := by
            conv_rhs => rw [← List.map_id rest]
            apply List.map_congr_left
            intro sequence member
            exact dropHead_of_not_mem fun inSequence =>
              fresh.2 (List.mem_flatten_of_mem member inSequence)
          rw [List.map_cons, unchanged, dropHead, if_pos rfl, List.flatten_cons]

/-- Sequences without a common name follow one another in a merge, also with parts of
this order beside them. -/
theorem merge_eq_flatten {parts : List (List String)} (flat : sequences.flatten = names)
    (distinct : names.Nodup) (kept : ∀ part ∈ parts, part.Sublist names) :
    merge (sequences ++ parts) = .ok names := by
  induction names generalizing sequences parts with
  | nil =>
      apply merge_of_used_up
      rw [nonempty, List.filter_eq_nil_iff]
      intro sequence member
      rcases List.mem_append.mp member with isSequence | isPart
      · simp [List.flatten_eq_nil_iff.mp flat sequence isSequence]
      · simp [List.sublist_nil.mp (kept sequence isPart)]
  | cons name rest ih =>
      rcases List.nodup_cons.mp distinct with ⟨fresh, restNodup⟩
      have within : ∀ sequence ∈ sequences ++ parts, sequence.Sublist (name :: rest) := by
        intro sequence member
        rcases List.mem_append.mp member with isSequence | isPart
        · exact flat ▸ List.sublist_flatten_of_mem isSequence
        · exact kept sequence isPart
      have next : nextName? (nonempty (sequences ++ parts)) = some name := by
        apply nextName?_of_head?
        · rw [List.flatten_append, flat]
          rfl
        · intro sequence member inTail
          exact fresh ((within sequence member).tail.subset inTail)
      have keptAfter : ∀ part ∈ afterName name parts, part.Sublist rest := by
        intro part member
        rcases List.mem_map.mp member with ⟨original, isOriginal, rfl⟩
        exact dropHead_sublist (kept original (mem_nonempty.mp isOriginal).1)
      rw [merge_of_nextName? next, afterName_append,
        ih (flatten_afterName flat fresh) restNodup keptAfter]
      rfl

/-! ## What a stuck merge leaves -/

theorem afterName_suffixes (name : String) (sequences : List (List String)) :
    List.SublistForall₂ (· <:+ ·) (afterName name sequences) sequences := by
  rw [afterName, List.sublistForall₂_map_left_iff, List.sublistForall₂_iff]
  exact ⟨nonempty sequences, List.forall₂_same.mpr fun sequence _ =>
    dropHead_suffix name sequence, List.filter_sublist⟩

/-- Where a merge is stuck, what it leaves of the sequences shows it. -/
theorem stuck_of_merge (failed : merge sequences = .error remaining) :
    Stuck sequences remaining := by
  induction sequences using merge_induction with
  | usedUp sequences empty =>
      rw [merge_of_used_up empty] at failed
      cases failed
  | stuck sequences nonemptyNe none =>
      rw [merge_of_nextName?_eq_none nonemptyNe none] at failed
      cases failed
      exact ⟨nonemptyNe, fun sequence member => (mem_nonempty.mp member).2,
        List.filter_sublist.sublistForall₂, nextName?_eq_none_iff.mp none⟩
  | step sequences first next ih =>
      rcases ih (merge_eq_error_of_nextName? next failed) with
        ⟨remainingNe, nonempty, suffixes, blocked⟩
      exact ⟨remainingNe, nonempty, Trans.trans suffixes (afterName_suffixes first sequences),
        blocked⟩

end SolidityModel
