import StateSearch.Proofs.Coherent
import StateSearch.Run

/-!
# Runs as admissions and removals

Whatever a run does, its set changes by admissions and by taking ids off the
worklist, one after the other.  `Visited.Leads` is the relation that these
two steps generate, and `leads_of_run` says that a run stays within it.  An
invariant of all runs is therefore proved for the two steps alone, by
induction on `Leads`.

There are three groups.

* The relation.
* What leads where.  An exploration is covered step by step, so the sets in
  the middle of one are covered too.
* Reachable sets, which are coherent.
-/

namespace StateSearch

variable {α : Type}

namespace Visited

/-! ## The relation -/

/-- The second set comes from the first by admissions, each under a
permitted comparator, and by handing out. -/
inductive Leads (permits : Comparator α → Prop) (set : Visited α) : Visited α → Prop
  | refl : Leads permits set set
  | insert {mid : Visited α} {cmp : Comparator α} (before : Leads permits set mid)
      (permitted : permits cmp) (key : UInt64) (state : α) :
      Leads permits set (mid.insert cmp key state).set
  | pop {mid : Visited α} (before : Leads permits set mid) : Leads permits set mid.pop.2

variable {permits : Comparator α → Prop} {set mid set' : Visited α}

theorem Leads.trans (first : Leads permits set mid) (second : Leads permits mid set') :
    Leads permits set set' := by
  induction second with
  | refl => exact first
  | insert _ permitted key state ih => exact ih.insert permitted key state
  | pop _ ih => exact ih.pop

/-- Both steps keep a set coherent, under every comparator. -/
theorem Leads.coherent (leads : Leads permits set set') (coherent : set.Coherent) :
    set'.Coherent := by
  induction leads with
  | refl => exact coherent
  | insert _ _ key state ih => exact ih.insert _ key state
  | pop _ ih => exact ih.pop

/-! ## What leads where -/

/-- An attempt to admit either fails and leaves the set as it was, or is the
admission. -/
theorem tryInsert_cases (reserve : Reserve) (set : Visited α) (cmp : Comparator α) (key : UInt64)
    (state : α) :
    (∃ failure, set.tryInsert reserve cmp key state = { answer := .error failure, set }) ∨
      set.tryInsert reserve cmp key state = (set.insert cmp key state).map .ok := by
  cases first : set.lookup cmp key state with
  | found id =>
    right
    simp [tryInsert, Visited.insert, first, Outcome.map]
  | absent after =>
    simp only [tryInsert, first]
    split
    · next failure _ => exact .inl ⟨failure, rfl⟩
    · exact .inr rfl

/-- Where there is room for a doubling that is due, an attempt to admit is the
admission. -/
theorem tryInsert_of_granted {reserve : Reserve}
    (granted : set.isFull = true → reserveDouble reserve set.bucketCount = .ok ())
    (cmp : Comparator α) (key : UInt64) (state : α) :
    set.tryInsert reserve cmp key state = (set.insert cmp key state).map .ok := by
  cases first : set.lookup cmp key state with
  | found id => simp [tryInsert, Visited.insert, first, Outcome.map]
  | absent after =>
    simp only [tryInsert, first]
    cases full : set.isFull with
    | false => rfl
    | true => rw [if_pos rfl, granted full]

/-- While the buckets fit into an array, their number can be doubled in a
word, and only room decides. -/
theorem reserveDouble_of_fits (fits : set.bucketCount ≤ largestArray) (reserve : Reserve) :
    reserveDouble reserve set.bucketCount =
      if reserve (2 * set.bucketCount) then .ok () else .error .outOfMemory := by
  unfold largestArray UInt64.size at fits
  have within : ¬ wordMax < 2 * set.bucketCount := by
    unfold wordMax UInt64.size
    omega
  rw [reserveDouble, if_neg within]

/-- Where arrays stay within bounds and room never runs out, an attempt to
admit is the admission. -/
theorem tryInsert_always (fits : set.bucketCount ≤ largestArray) (cmp : Comparator α)
    (key : UInt64) (state : α) :
    set.tryInsert .always cmp key state = (set.insert cmp key state).map .ok :=
  tryInsert_of_granted (fun _ => reserveDouble_of_fits fits .always) cmp key state

theorem leads_tryInsert (reserve : Reserve) (set : Visited α) {cmp : Comparator α}
    (permitted : permits cmp) (key : UInt64) (state : α) :
    Leads permits set (set.tryInsert reserve cmp key state).set := by
  rcases tryInsert_cases reserve set cmp key state with ⟨failure, eq⟩ | eq
  · rw [eq]
    exact .refl
  · rw [eq]
    exact Leads.refl.insert permitted key state

/-- Offering successors admits them one after the other. -/
theorem leads_offers {cmp : Comparator α} (permitted : permits cmp)
    (successors : List (UInt64 × α)) {exploration : Exploration α}
    (leads : Leads permits set exploration.set) :
    Leads permits set (successors.foldl (Exploration.offer cmp) exploration).set := by
  induction successors generalizing exploration with
  | nil => exact leads
  | cons successor successors ih =>
    have offered : Leads permits set (exploration.offer cmp successor).set :=
      leads.insert permitted successor.1 successor.2
    exact ih offered

/-- A step of an exploration hands out one state and admits its successors. -/
theorem leads_step {cmp : Comparator α} (permitted : permits cmp) (expand : Expander α)
    (exploration : Exploration α) :
    Leads permits exploration.set (exploration.step cmp expand).set := by
  rcases exploration with ⟨set, buffer, tally, visits, events⟩
  have popped : Leads permits set set.pop.2 := Leads.refl.pop
  simp only [Exploration.step]
  split
  · next eq =>
    rw [eq] at popped
    exact popped
  · next id after eq =>
    rw [eq] at popped
    split
    · exact popped
    · rw [← Array.foldl_toList]
      exact leads_offers permitted _ popped

theorem leads_runFor {cmp : Comparator α} (permitted : permits cmp) (expand : Expander α)
    {bound : Nat} {exploration result : Exploration α}
    (ended : Exploration.runFor cmp expand bound exploration = some result) :
    Leads permits exploration.set result.set := by
  refine Exploration.runFor_head_induction
    (motive := fun _ exploration => Leads permits exploration.set result.set) ended ?_ ?_
  · intro _ _
    exact .refl
  · intro _ exploration _ _ rest
    exact (leads_step permitted expand exploration).trans rest

theorem leads_of_perform {reserve : Reserve} {bound : Nat} {cmp : Comparator α}
    (permitted : permits cmp) {operation : Operation α} {outcome : Outcome α (Answer α)}
    (performed : set.perform reserve bound cmp operation = some outcome) :
    Leads permits set outcome.set := by
  cases operation with
  | insert key state =>
    obtain rfl := Option.some.inj performed
    exact Leads.refl.insert permitted key state
  | tryInsert key state =>
    obtain rfl := Option.some.inj performed
    exact leads_tryInsert reserve set permitted key state
  | pop =>
    obtain rfl := Option.some.inj performed
    exact Leads.refl.pop
  | explore expand =>
    simp only [perform, explore?, Option.map_map, Option.map_eq_some_iff] at performed
    rcases performed with ⟨result, ended, rfl⟩
    exact leads_runFor permitted expand ended
  | find | contains | peek | entries | waiting =>
    obtain rfl := Option.some.inj performed
    exact .refl

/-- A run changes its set by admissions and by handing out. -/
theorem leads_of_run {reserve : Reserve} {bound : Nat}
    {operations : List (Comparator α × Operation α)} {outcome : Outcome α (List (Answer α))}
    (permitted : ∀ operation ∈ operations, permits operation.1)
    (ran : run reserve bound set operations = some outcome) : Leads permits set outcome.set := by
  refine run_induction (motive := fun set operations outcome =>
    (∀ operation ∈ operations, permits operation.1) → Leads permits set outcome.set) ran ?_ ?_
    permitted
  · intro set _
    exact .refl
  · intro set cmp operation operations first later performed rest permitted
    have here := leads_of_perform (permitted _ List.mem_cons_self) performed
    exact here.trans (rest fun other mem => permitted other (List.mem_cons_of_mem _ mem))

/-- The same induction for a coherent set and operations that are no
explorations. -/
theorem Coherent.run_induction {reserve : Reserve} {bound : Nat}
    {motive : Visited α → List (Comparator α × Operation α) →
      Outcome α (List (Answer α)) → Prop}
    (nil : ∀ set, motive set [] { answer := [], set })
    (cons : ∀ (set : Visited α) cmp operation operations first later, set.Coherent →
      operation.explores = false → set.perform reserve bound cmp operation = some first →
      motive first.set operations later →
      motive set ((cmp, operation) :: operations)
        { answer := first.answer :: later.answer, set := later.set,
          events := first.events ++ later.events })
    (coherent : set.Coherent) {operations : List (Comparator α × Operation α)}
    {outcome : Outcome α (List (Answer α))}
    (single : ∀ operation ∈ operations, operation.2.explores = false)
    (ran : run reserve bound set operations = some outcome) : motive set operations outcome := by
  refine Visited.run_induction (motive := fun set operations outcome => set.Coherent →
    (∀ operation ∈ operations, operation.2.explores = false) → motive set operations outcome)
    ran ?_ ?_ coherent single
  · intro set _ _
    exact nil set
  · intro set cmp operation operations first later performed rest coherent single
    have leads : Leads (fun _ => True) set first.set := leads_of_perform trivial performed
    exact cons set cmp operation operations first later coherent (single _ List.mem_cons_self)
      performed
      (rest (leads.coherent coherent) fun other mem => single other (List.mem_cons_of_mem _ mem))

/-- A run can go on by one operation. -/
theorem RunsTo.perform {reserve : Reserve} {bound : Nat}
    (runs : RunsTo permits reserve bound set mid) {cmp : Comparator α} (permitted : permits cmp)
    (operation : Operation α) {last : Outcome α (Answer α)}
    (performed : mid.perform reserve bound cmp operation = some last) :
    RunsTo permits reserve bound set last.set := by
  rcases runs with ⟨operations, outcome, all, ran, rfl⟩
  have extended : run reserve bound set (operations ++ [(cmp, operation)]) =
      some ⟨outcome.answer ++ [last.answer], last.set, outcome.events ++ last.events⟩ := by
    rw [run_append, ran]
    simp [run, performed]
  refine ⟨_, _, ?_, extended, rfl⟩
  intro other mem
  rcases List.mem_append.1 mem with old | new
  · exact all other old
  · rw [List.mem_singleton.1 new]
    exact permitted

/-- Whatever admissions and handing out lead to, a run leads to. -/
theorem Leads.runsTo (leads : Leads permits set set') (cmp : Comparator α)
    (permitted : permits cmp) (reserve : Reserve) (bound : Nat) :
    RunsTo permits reserve bound set set' := by
  induction leads with
  | refl => exact ⟨[], _, by simp, rfl, rfl⟩
  | insert _ permitted' key state ih => exact ih.perform permitted' (.insert key state) rfl
  | pop _ ih => exact ih.perform permitted .pop rfl

/-! ## Reachable sets -/

theorem RunsTo.leads {reserve : Reserve} {bound : Nat}
    (runs : RunsTo permits reserve bound set set') : Leads permits set set' := by
  rcases runs with ⟨operations, outcome, permitted, ran, rfl⟩
  exact leads_of_run permitted ran

theorem Reachable.exists_leads (reachable : set.Reachable) :
    ∃ count, ValidBucketCount count ∧ Leads (fun _ => True) (ofCount count) set := by
  rcases reachable with ⟨count, reserve, bound, valid, runs⟩
  exact ⟨count, valid, runs.leads⟩

theorem ReachableUnder.exists_leads {cmp : Comparator α} (reachable : set.ReachableUnder cmp) :
    ∃ count, ValidBucketCount count ∧ Leads (· = cmp) (ofCount count) set := by
  rcases reachable with ⟨count, reserve, bound, valid, runs⟩
  exact ⟨count, valid, runs.leads⟩

/-- A set that a run under one comparator leads to is reachable. -/
theorem ReachableUnder.reachable {cmp : Comparator α} (reachable : set.ReachableUnder cmp) :
    set.Reachable := by
  rcases reachable with ⟨count, reserve, bound, valid, operations, outcome, _, ran, set_eq⟩
  exact ⟨count, reserve, bound, valid, operations, outcome, fun _ _ => trivial, ran, set_eq⟩

/-- What admissions and handing out make of a reachable set is reachable.
With `leads_step` this holds in the middle of an exploration, also of one
that never ends. -/
theorem Reachable.leads (reachable : set.Reachable) (leads : Leads (fun _ => True) set set') :
    set'.Reachable := by
  rcases reachable.exists_leads with ⟨count, valid, before⟩
  exact ⟨count, .always, 0, valid, (before.trans leads).runsTo (fun _ _ => .eq) trivial .always 0⟩

theorem ReachableUnder.leads {cmp : Comparator α} (reachable : set.ReachableUnder cmp)
    (leads : Leads (· = cmp) set set') : set'.ReachableUnder cmp := by
  rcases reachable.exists_leads with ⟨count, valid, before⟩
  exact ⟨count, .always, 0, valid, (before.trans leads).runsTo cmp rfl .always 0⟩

/-- Runs that follow each other may find different room, so what was refused
can be admitted later. -/
theorem Reachable.runsTo (reachable : set.Reachable) {reserve : Reserve} {bound : Nat}
    (runs : RunsTo (fun _ => True) reserve bound set set') : set'.Reachable :=
  reachable.leads runs.leads

theorem ReachableUnder.runsTo {cmp : Comparator α} (reachable : set.ReachableUnder cmp)
    {reserve : Reserve} {bound : Nat} (runs : RunsTo (· = cmp) reserve bound set set') :
    set'.ReachableUnder cmp :=
  reachable.leads runs.leads

/-- Every run keeps the chains and the worklist in order, whatever the
comparators do. -/
theorem Reachable.coherent (reachable : set.Reachable) : set.Coherent := by
  rcases reachable.exists_leads with ⟨count, valid, leads⟩
  exact leads.coherent (coherent_ofCount valid)

end Visited

end StateSearch
