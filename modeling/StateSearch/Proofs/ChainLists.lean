import StateSearch.Proofs.Balance

/-!
# Linked chains and tables of lists

A set with linked chains and a `ListTable` with a stack are the same machine.
Nothing is asked of the comparators: they may break every law, disagree with
the keys, and change from one operation to the next.

The only thing that runs of the two do not share is a bucket array that
outgrows memory, `Visited.FitsThroughout`.  Where a run returns, its last
set tells whether it fits, `fitsThroughout_of_run`.
-/

namespace StateSearch

variable {α : Type}

namespace Visited

variable {permits : Comparator α → Prop} {set set' : Visited α}

/-- Buckets never become fewer. -/
theorem Leads.bucketCount_le (leads : Leads permits set set') :
    set.bucketCount ≤ set'.bucketCount := by
  induction leads with
  | refl => exact Nat.le_refl _
  | @insert mid cmp _ _ key state ih =>
    refine Nat.le_trans ih ?_
    refine insert_cases (motive := fun outcome => mid.bucketCount ≤ outcome.set.bucketCount)
      ?_ ?_ ?_ ?_
    · intro id _
      exact Nat.le_refl _
    · intro after _ _
      rw [bucketCount_place]
    · intro after id _ _ _
      rw [bucketCount_double]
      omega
    · intro after after' _ _ _
      rw [bucketCount_place, bucketCount_double]
      omega
  | pop _ ih => exact ih

/-- A run that returns fits throughout if its last bucket array fits. -/
theorem fitsThroughout_of_run {reserve : Reserve} {bound : Nat}
    {operations : List (Comparator α × Operation α)} {outcome : Outcome α (List (Answer α))}
    (ran : run reserve bound set operations = some outcome)
    (fits : outcome.set.bucketCount ≤ largestArray) :
    set.FitsThroughout reserve bound operations := by
  intro before first front ran_before
  rcases front with ⟨after, rfl⟩
  rw [run_append, ran_before] at ran
  simp only [Option.bind_some, Option.map_eq_some_iff] at ran
  rcases ran with ⟨later, ran_after, rfl⟩
  have leads : Leads (fun _ => True) first.set later.set :=
    leads_of_run (fun _ _ => trivial) ran_after
  exact Nat.le_trans leads.bucketCount_le fits

theorem ledger_ofCount {count : Nat} (valid : ValidBucketCount count) :
    (Ledger.mk (ListTable.ofCount count) [] : Ledger ListTable α).Balances
      (fun set table => set.listTable = table) (ofCount count) where
  coherent := coherent_ofCount valid
  catalogue := listTable_ofCount count
  stack_eq := (coherent_ofCount valid).worklist.linked.unique .nil |>.symm

end Visited

/-- The table of the lists of a set judges every candidate like the set,
whatever the comparator. -/
theorem mirrors_listTable :
    Mirrors (fun (set : Visited α) table => set.listTable = table) fun _ _ _ => True where
  admitted_eq := by
    intro set table same
    subst same
    rfl
  permitted := fun _ _ _ => ⟨fun _ _ => .eq, trivial⟩
  find?_eq := by
    intro set table cmp key state coherent same _
    subst same
    exact (coherent.find?_eq cmp key state).symm
  insert := by
    intro set table cmp key state coherent same _
    subst same
    have inserted := coherent.listTable_insert cmp key state
    exact ⟨congrArg Prod.fst inserted.symm, congrArg Prod.snd inserted⟩
  pop := by
    intro set table coherent same
    subst same
    exact coherent.listTable_pop

/-- For all comparators, a run of a set whose bucket arrays fit into memory
is the run of the table of lists: the answers are the same, and afterwards
so are all lists and the stack. -/
theorem Visited.run_eq_run_listTable {count : Nat} (valid : ValidBucketCount count) {bound : Nat}
    {operations : List (Comparator α × Operation α)}
    (fits : (ofCount count).FitsThroughout .always bound operations) :
    (run .always bound (ofCount count) operations).map
        (fun outcome => (outcome.answer, outcome.set.ledger Visited.listTable)) =
      Ledger.run bound { catalogue := ListTable.ofCount count } operations := by
  have permitted : ∀ operation ∈ operations,
      operation.2.Permitted (fun _ _ _ => True) operation.1 := by
    intro operation _
    cases operation.2 <;> simp [Operation.Permitted]
  exact Ledger.map_eq_of_agrees (fun _ _ same => same)
    ((ledger_ofCount valid).run mirrors_listTable permitted fits)

/-- States that share a bucket, under comparators at odds with each other. -/
def discord : List (Comparator Nat × Operation Nat) :=
  [(fun _ _ => .gt, .insert 7 1), (fun _ _ => .gt, .insert 1031 2),
    (fun _ _ => .lt, .insert 2055 3), (fun _ _ => .eq, .tryInsert 7 4),
    (Comparator.natural, .pop), (Comparator.natural, .find 7 3)]

theorem run_eq_run_listTable_discord :
    ValidBucketCount 1024 ∧ (Visited.ofCount 1024).FitsThroughout .always 0 discord ∧
      (Visited.run .always 0 (.ofCount 1024) discord).map
          (fun outcome => (outcome.answer, outcome.set.ledger Visited.listTable)) =
        Ledger.run 0 { catalogue := ListTable.ofCount 1024 } discord := by
  have ended : (Visited.run .always 0 (.ofCount 1024) discord).map
      (fun outcome => outcome.set.bucketCount) = some 1024 := by decide +kernel
  obtain ⟨outcome, ran, count_eq⟩ := Option.map_eq_some_iff.1 ended
  have fits := Visited.fitsThroughout_of_run ran (by rw [count_eq]; decide)
  exact ⟨validBucketCount_minBuckets, fits,
    Visited.run_eq_run_listTable validBucketCount_minBuckets fits⟩

end StateSearch
