/-!
# Merging precedence sequences

A merge takes names one by one.  The next name is the first head of a sequence
that stands in the tail of none, and it is then dropped from the front of every
sequence.  The merge ends when all sequences are used up, or is stuck when every
head waits for another sequence; then what is left of the sequences is the
answer.
-/

namespace SolidityModel

/-- The first head that stands in no tail. -/
def nextName? (sequences : List (List String)) : Option String :=
  (sequences.filterMap List.head?).find? fun name =>
    sequences.all fun sequence => name ∉ sequence.tail

/-- A sequence without a name at its front. -/
def dropHead (name : String) : List String → List String
  | [] => []
  | head :: rest => if head = name then rest else head :: rest

theorem length_dropHead_le (name : String) (sequence : List String) :
    (dropHead name sequence).length ≤ sequence.length := by
  cases sequence with
  | nil => simp [dropHead]
  | cons head rest => rw [dropHead]; split <;> simp

/-- The number of names in all sequences together. -/
def totalLength : List (List String) → Nat
  | [] => 0
  | sequence :: rest => sequence.length + totalLength rest

theorem totalLength_dropHead_le (name : String) (sequences : List (List String)) :
    totalLength (sequences.map (dropHead name)) ≤ totalLength sequences := by
  induction sequences with
  | nil => simp [totalLength]
  | cons sequence rest ih =>
      have shorter := length_dropHead_le name sequence
      simp only [List.map_cons, totalLength]
      omega

theorem totalLength_dropHead_lt {name : String} {sequences : List (List String)}
    (isHead : name ∈ sequences.filterMap List.head?) :
    totalLength (sequences.map (dropHead name)) < totalLength sequences := by
  induction sequences with
  | nil => simp at isHead
  | cons sequence rest ih =>
      simp only [List.map_cons, totalLength]
      cases sequence with
      | nil =>
          have tail := ih (by simpa using isHead)
          simpa [dropHead] using tail
      | cons head others =>
          have tailLe := totalLength_dropHead_le name rest
          by_cases equal : head = name
          · simp only [dropHead, equal, if_true, List.length_cons]
            omega
          · have inRest : name ∈ rest.filterMap List.head? := by
              simpa [Ne.symm equal] using isHead
            have tail := ih inRest
            simp only [dropHead, equal, if_false]
            omega

theorem totalLength_filter_le (keep : List String → Bool) (sequences : List (List String)) :
    totalLength (sequences.filter keep) ≤ totalLength sequences := by
  induction sequences with
  | nil => simp
  | cons sequence rest ih =>
      rw [List.filter_cons]
      split <;> simp only [totalLength] <;> omega

/-- The sequences that still hold names. -/
def nonempty (sequences : List (List String)) : List (List String) :=
  sequences.filter fun sequence => !sequence.isEmpty

/-- The merge of sequences, or what is left of them where it is stuck. -/
def merge (sequences : List (List String)) : Except (List (List String)) (List String) :=
  let remaining := nonempty sequences
  if remaining.isEmpty then .ok []
  else
    match _ : nextName? remaining with
    | none => .error remaining
    | some name =>
        match merge (remaining.map (dropHead name)) with
        | .ok names => .ok (name :: names)
        | .error stuck => .error stuck
termination_by totalLength sequences
decreasing_by
  have isHead : name ∈ (nonempty sequences).filterMap List.head? :=
    List.mem_of_find?_eq_some ‹_›
  exact Nat.lt_of_lt_of_le (totalLength_dropHead_lt isHead) (totalLength_filter_le _ _)

end SolidityModel
