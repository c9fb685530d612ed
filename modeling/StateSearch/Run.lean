import StateSearch.Exploration

/-!
# Runs of operations

A run performs a list of operations on one set, each under a comparator of
its own.  It collects the answers and the reported events.  An exploration
within a run need not end, so a run has a bound on the steps of each
exploration and gives nothing if the bound is too small.

There are two groups.

* Operations and answers.  `Visited.perform` carries one operation out.
* Runs.  `Visited.run_induction` takes the operations of a run one by one, and
  `Visited.run_append` cuts a run in two.  `Visited.Throughout` speaks
  of all sets on the way of a run, and `Visited.FitsThroughout` says that
  memory suffices for it.  `Visited.Reachable` and `Visited.ReachableUnder`
  name the sets that runs lead to.
-/

namespace StateSearch

variable {α : Type}

/-! ## Operations and answers -/

/-- Something that a caller can ask of a set. -/
inductive Operation (α : Type) where
  | insert (key : UInt64) (state : α)
  | tryInsert (key : UInt64) (state : α)
  | find (key : UInt64) (state : α)
  | contains (key : UInt64) (state : α)
  | pop
  | peek
  | entries
  | waiting
  | explore (expand : Expander α)

/-- The candidate that an operation hands over. -/
def Operation.candidate? : Operation α → Option (UInt64 × α)
  | .insert key state | .tryInsert key state | .find key state | .contains key state =>
    some (key, state)
  | .pop | .peek | .entries | .waiting | .explore _ => none

/-- What an operation inserts. -/
def Operation.inserted? : Operation α → Option (UInt64 × α)
  | .insert key state | .tryInsert key state => some (key, state)
  | .find _ _ | .contains _ _ | .pop | .peek | .entries | .waiting | .explore _ => none

/-- Whether an operation is an exploration, which need not return. -/
def Operation.explores : Operation α → Bool
  | .explore _ => true
  | _ => false

/-- What a set answers. -/
inductive Answer (α : Type) where
  /-- What became of an inserted state. -/
  | verdict (verdict : Verdict α)
  /-- What became of a state whose insertion could fail. -/
  | attempt (result : Except Failure (Verdict α))
  /-- The equal state that was looked for. -/
  | found (id : Option Id)
  /-- Whether there is an equal state. -/
  | present (answer : Bool)
  /-- The state that was handed out. -/
  | popped (id : Option Id)
  /-- The state that comes next. -/
  | next (id : Option Id)
  /-- The admitted states. -/
  | entries (entries : List (Entry α))
  /-- The waiting states. -/
  | waiting (entries : List (Entry α))
  /-- The end of an exploration. -/
  | explored (report : Report α)

namespace Visited

/-- Carries out one operation. -/
def perform (reserve : Reserve) (bound : Nat) (set : Visited α) (cmp : Comparator α) :
    Operation α → Option (Outcome α (Answer α))
  | .insert key state => some ((set.insert cmp key state).map .verdict)
  | .tryInsert key state => some ((set.tryInsert reserve cmp key state).map .attempt)
  | .find key state => some { answer := .found (set.find? cmp key state), set }
  | .contains key state => some { answer := .present (set.contains cmp key state), set }
  | .pop =>
    let (id, set) := set.pop
    some { answer := .popped id, set }
  | .peek => some { answer := .next set.peek?, set }
  | .entries => some { answer := .entries set.entries, set }
  | .waiting => some { answer := .waiting set.waiting, set }
  | .explore expand => (set.explore? bound cmp expand).map (Outcome.map .explored)

/-! ## Runs -/

/-- Carries out operations one after the other. -/
def run (reserve : Reserve) (bound : Nat) :
    Visited α → List (Comparator α × Operation α) → Option (Outcome α (List (Answer α)))
  | set, [] => some { answer := [], set }
  | set, (cmp, operation) :: rest =>
    (set.perform reserve bound cmp operation).bind fun first =>
      (run reserve bound first.set rest).map fun later =>
        { answer := first.answer :: later.answer
          set := later.set
          events := first.events ++ later.events }

theorem run_cons_eq_some_iff {reserve : Reserve} {bound : Nat} {set : Visited α}
    {cmp : Comparator α} {operation : Operation α}
    {operations : List (Comparator α × Operation α)} {outcome : Outcome α (List (Answer α))} :
    run reserve bound set ((cmp, operation) :: operations) = some outcome ↔
      ∃ first, set.perform reserve bound cmp operation = some first ∧
        ∃ later, run reserve bound first.set operations = some later ∧
          { answer := first.answer :: later.answer, set := later.set,
            events := first.events ++ later.events } = outcome := by
  simp only [run, Option.bind_eq_some_iff, Option.map_eq_some_iff]

/-- What one operation does, together with what the rest of a run does, is
what the run does. -/
theorem run_induction {reserve : Reserve} {bound : Nat}
    {motive : Visited α → List (Comparator α × Operation α) →
      Outcome α (List (Answer α)) → Prop}
    {set : Visited α} {operations : List (Comparator α × Operation α)}
    {outcome : Outcome α (List (Answer α))}
    (ran : run reserve bound set operations = some outcome)
    (nil : ∀ set, motive set [] { answer := [], set })
    (cons : ∀ (set : Visited α) cmp operation operations first later,
      set.perform reserve bound cmp operation = some first →
      motive first.set operations later →
      motive set ((cmp, operation) :: operations)
        { answer := first.answer :: later.answer, set := later.set,
          events := first.events ++ later.events }) : motive set operations outcome := by
  induction operations generalizing set outcome with
  | nil =>
    obtain rfl := Option.some.inj ran
    exact nil set
  | cons head operations ih =>
    rcases head with ⟨cmp, operation⟩
    rw [run_cons_eq_some_iff] at ran
    obtain ⟨first, performed, later, ran, rfl⟩ := ran
    exact cons set cmp operation operations first later performed (ih ran)

/-- A run in two parts is the first part and then the second. -/
theorem run_append (reserve : Reserve) (bound : Nat) (set : Visited α)
    (before after : List (Comparator α × Operation α)) :
    run reserve bound set (before ++ after) =
      (run reserve bound set before).bind fun first =>
        (run reserve bound first.set after).map fun later =>
          { answer := first.answer ++ later.answer
            set := later.set
            events := first.events ++ later.events } := by
  induction before generalizing set with
  | nil => simp [run]
  | cons head before ih =>
    rcases head with ⟨cmp, operation⟩
    simp only [List.cons_append, run, ih]
    cases set.perform reserve bound cmp operation with
    | none => rfl
    | some first =>
      cases before_eq : run reserve bound first.set before with
      | none => simp [before_eq]
      | some middle =>
        cases after_eq : run reserve bound middle.set after <;> simp [before_eq, after_eq]

/-- Every set that a run comes to after some of its operations is like
this. -/
def Throughout (holds : Visited α → Prop) (reserve : Reserve) (bound : Nat) (set : Visited α)
    (operations : List (Comparator α × Operation α)) : Prop :=
  ∀ before outcome, before <+: operations → run reserve bound set before = some outcome →
    holds outcome.set

namespace Throughout

variable {holds : Visited α → Prop} {reserve : Reserve} {bound : Nat} {set : Visited α}
  {cmp : Comparator α} {operation : Operation α} {operations : List (Comparator α × Operation α)}

theorem here (all : Throughout holds reserve bound set operations) : holds set :=
  all [] _ List.nil_prefix rfl

theorem rest (all : Throughout holds reserve bound set ((cmp, operation) :: operations))
    {first : Outcome α (Answer α)}
    (performed : set.perform reserve bound cmp operation = some first) :
    Throughout holds reserve bound first.set operations := by
  intro before outcome before_le ran
  refine all ((cmp, operation) :: before)
    ⟨first.answer :: outcome.answer, outcome.set, first.events ++ outcome.events⟩
    (List.cons_prefix_cons.2 ⟨rfl, before_le⟩) ?_
  simp [run, performed, ran]

end Throughout

/-- On the way of a run no bucket array outgrows what an array can hold. -/
def FitsThroughout (reserve : Reserve) (bound : Nat) (set : Visited α)
    (operations : List (Comparator α × Operation α)) : Prop :=
  Throughout (fun set => set.bucketCount ≤ largestArray) reserve bound set operations

/-- Some run under permitted comparators ends with the second set. -/
def RunsTo (permits : Comparator α → Prop) (reserve : Reserve) (bound : Nat)
    (set set' : Visited α) : Prop :=
  ∃ operations outcome, (∀ operation ∈ operations, permits operation.1) ∧
    run reserve bound set operations = some outcome ∧ outcome.set = set'

/-- A set that a run can lead to from an empty one with a valid number of
buckets. -/
def Reachable (set : Visited α) : Prop :=
  ∃ count reserve bound, ValidBucketCount count ∧
    RunsTo (fun _ => True) reserve bound (ofCount count) set

/-- A set that a run can lead to that uses one comparator throughout. -/
def ReachableUnder (cmp : Comparator α) (set : Visited α) : Prop :=
  ∃ count reserve bound, ValidBucketCount count ∧
    RunsTo (· = cmp) reserve bound (ofCount count) set

end Visited

end StateSearch
