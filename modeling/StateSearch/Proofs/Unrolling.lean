import StateSearch.Proofs.Steps
import StateSearch.Unrolled

/-!
# An exploration is a run of single operations

`Visited.details_unroll` says that a run with its explorations spelled out
returns, leads to the same set, and hands out the same ids in the same
order.  What is proved of runs without explorations therefore holds of all
runs, and speaks of the middle of an exploration too.

`Visited.Details` is the statement for a part of a run.  Parts that follow
each other join, `Details.append`, and the proof goes from one step of an
exploration to all of them, then to one operation and to the run.
-/

namespace StateSearch

variable {α : Type}

/-- The changes of the worklist that answers tell of. -/
def deeds (answers : List (Answer α)) : List Deed :=
  answers.filterMap Answer.deed?

/-- The ids that deeds hand out, in order. -/
def handedOut (deeds : List Deed) : List Id :=
  deeds.filterMap Deed.handedOut?

@[simp] theorem handedOut_append (before after : List Deed) :
    handedOut (before ++ after) = handedOut before ++ handedOut after :=
  List.filterMap_append

@[simp] theorem deeds_append (before after : List (Answer α)) :
    deeds (before ++ after) = deeds before ++ deeds after :=
  List.filterMap_append

theorem mem_handedOut {deeds : List Deed} {id : Id} :
    id ∈ handedOut deeds ↔ .handedOut id ∈ deeds := by
  rw [handedOut, List.mem_filterMap]
  constructor
  · rintro ⟨deed, mem, eq⟩
    cases deed with
    | admitted other => cases eq
    | handedOut other =>
      obtain rfl := Option.some.inj eq
      exact mem
  · intro mem
    exact ⟨_, mem, rfl⟩

/-- A step of an exploration takes one state and inserts others. -/
theorem Exploration.explores_eq_false_of_mem_movesFor {cmp : Comparator α} {expand : Expander α}
    {bound : Nat} {exploration : Exploration α} {move : Operation α}
    (mem : move ∈ movesFor cmp expand bound exploration) : move.explores = false := by
  induction bound generalizing exploration with
  | zero => cases mem
  | succ bound ih =>
    rw [movesFor] at mem
    split at mem
    · cases mem
    · rcases List.mem_append.1 mem with here | later
      · rw [moves] at here
        simp only at here
        split at here
        · rw [List.mem_singleton.1 here]
          rfl
        · rcases List.mem_cons.1 here with rfl | here
          · rfl
          · obtain ⟨successor, _, rfl⟩ := List.mem_map.1 here
            rfl
      · exact ih later

namespace Visited

variable {reserve : Reserve} {bound : Nat} {set mid set' : Visited α}
  {operations operations' : List (Comparator α × Operation α)} {ids ids' : List Id}

/-- A run of these operations returns, ends with the second set and hands
out these ids. -/
def Details (reserve : Reserve) (bound : Nat) (set : Visited α)
    (operations : List (Comparator α × Operation α)) (set' : Visited α) (ids : List Id) : Prop :=
  ∃ detailed, run reserve bound set operations = some detailed ∧ detailed.set = set' ∧
    handedOut (deeds detailed.answer) = ids

theorem Details.nil (reserve : Reserve) (bound : Nat) (set : Visited α) :
    Details reserve bound set [] set [] :=
  ⟨_, rfl, rfl, rfl⟩

theorem Details.append (first : Details reserve bound set operations mid ids)
    (second : Details reserve bound mid operations' set' ids') :
    Details reserve bound set (operations ++ operations') set' (ids ++ ids') := by
  rcases first with ⟨outcome, ran, rfl, rfl⟩
  rcases second with ⟨outcome', ran', rfl, rfl⟩
  have joined : run reserve bound set (operations ++ operations') =
      some ⟨outcome.answer ++ outcome'.answer, outcome'.set, outcome.events ++ outcome'.events⟩ := by
    rw [run_append, ran, Option.bind_some, ran', Option.map_some]
  refine ⟨_, joined, rfl, ?_⟩
  rw [deeds_append, handedOut_append]

theorem perform_pop (reserve : Reserve) (bound : Nat) (set : Visited α) (cmp : Comparator α) :
    set.perform reserve bound cmp .pop = some { answer := .popped set.pop.1, set := set.pop.2 } :=
  rfl

/-- The answer to a single operation tells which id it hands out. -/
theorem handedOut_of_perform {cmp : Comparator α} {operation : Operation α}
    {first : Outcome α (Answer α)} (single : operation.explores = false)
    (performed : set.perform reserve bound cmp operation = some first) :
    handedOut first.answer.deed?.toList = first.answer.handedOut := by
  cases operation with
  | explore expand => cases single
  | insert key state =>
    obtain rfl := Option.some.inj performed
    simp only [Outcome.map]
    cases (set.insert cmp key state).answer <;> rfl
  | tryInsert key state =>
    obtain rfl := Option.some.inj performed
    simp only [Outcome.map]
    rcases (set.tryInsert reserve cmp key state).answer with failure | verdict
    · rfl
    · cases verdict <;> rfl
  | pop =>
    rw [perform_pop] at performed
    obtain rfl := Option.some.inj performed
    cases set.pop.1 <;> rfl
  | find | contains | peek | entries | waiting =>
    obtain rfl := Option.some.inj performed
    rfl

/-- A single operation is a run of one operation. -/
theorem Details.single {cmp : Comparator α} {operation : Operation α}
    {first : Outcome α (Answer α)} (single : operation.explores = false)
    (performed : set.perform reserve bound cmp operation = some first) :
    Details reserve bound set [(cmp, operation)] first.set first.answer.handedOut := by
  have ran : run reserve bound set [(cmp, operation)] =
      some ⟨[first.answer], first.set, first.events⟩ := by
    simp [run, performed]
  refine ⟨_, ran, rfl, ?_⟩
  rw [← handedOut_of_perform single performed]
  cases deed : first.answer.deed? <;> simp [deeds, deed]

/-- Admissions hand nothing out. -/
theorem Details.insertAll (reserve : Reserve) (bound : Nat) (set : Visited α)
    (cmp : Comparator α) (candidates : List (UInt64 × α)) :
    Details reserve bound set
      (candidates.map fun candidate => (cmp, .insert candidate.1 candidate.2))
      (set.insertAll cmp candidates) [] := by
  induction candidates generalizing set with
  | nil => exact Details.nil reserve bound set
  | cons candidate candidates ih =>
    have first : Details reserve bound set [(cmp, .insert candidate.1 candidate.2)]
        (set.insert cmp candidate.1 candidate.2).set [] := by
      have performed : set.perform reserve bound cmp (.insert candidate.1 candidate.2) =
          some ((set.insert cmp candidate.1 candidate.2).map .verdict) := rfl
      exact Details.single rfl performed
    exact first.append (ih (set.insert cmp candidate.1 candidate.2).set)

/-! ## Explorations -/

/-- Where something waits, the operations of a step do what the step does. -/
theorem details_moves (reserve : Reserve) (bound : Nat) {exploration : Exploration α}
    (coherent : exploration.set.Coherent) (waits : exploration.isDone = false)
    (cmp : Comparator α) (expand : Expander α) :
    ∃ ids, Details reserve bound exploration.set ((exploration.moves expand).map (cmp, ·))
        (exploration.step cmp expand).set ids ∧
      (exploration.step cmp expand).visits.toList.map Visit.id =
        exploration.visits.toList.map Visit.id ++ ids := by
  cases stack_eq : exploration.set.stack with
  | nil =>
    rw [(Exploration.isDone_iff coherent).2 stack_eq] at waits
    cases waits
  | cons id rest =>
    obtain ⟨state, found, step_eq⟩ := Exploration.step_eq cmp expand coherent stack_eq
    obtain ⟨set_eq, visits_eq, _⟩ := Exploration.foldl_offer cmp
      (expand state exploration.buffer).toList (exploration.expanding expand id state)
    have popped := coherent.pop_fst
    rw [stack_eq, List.head?_cons] at popped
    have moves_eq : exploration.moves expand = .pop ::
        (expand state exploration.buffer).toList.map fun next => .insert next.1 next.2 := by
      simp only [Exploration.moves, popped, Option.bind_some, state?_pop, found]
    have removal : Details reserve bound exploration.set [(cmp, .pop)] exploration.set.pop.2
        [id] := by
      have single := Details.single rfl (perform_pop reserve bound exploration.set cmp)
      rw [popped] at single
      exact single
    refine ⟨[id], ?_, ?_⟩
    · rw [step_eq, set_eq, moves_eq, List.map_cons, List.map_map]
      exact removal.append (Details.insertAll reserve bound _ cmp _)
    · rw [step_eq, visits_eq]
      simp [Exploration.expanding]

/-- The operations of an exploration do what the exploration does. -/
theorem details_movesFor (reserve : Reserve) (bound' : Nat) {cmp : Comparator α}
    {expand : Expander α} {exploration result : Exploration α}
    (ended : Exploration.runFor cmp expand bound exploration = some result)
    (coherent : exploration.set.Coherent) :
    ∃ ids, Details reserve bound' exploration.set
        ((Exploration.movesFor cmp expand bound exploration).map (cmp, ·)) result.set ids ∧
      result.visits.toList.map Visit.id = exploration.visits.toList.map Visit.id ++ ids := by
  refine Exploration.runFor_head_induction (motive := fun bound exploration =>
    exploration.set.Coherent → ∃ ids, Details reserve bound' exploration.set
      ((Exploration.movesFor cmp expand bound exploration).map (cmp, ·)) result.set ids ∧
        result.visits.toList.map Visit.id = exploration.visits.toList.map Visit.id ++ ids)
    ended ?_ ?_ coherent
  · intro bound done _
    rw [Exploration.movesFor_of_isDone done]
    exact ⟨[], Details.nil .., by simp⟩
  · intro bound exploration waits _ rest coherent
    have leads : Leads (fun _ => True) exploration.set (exploration.step cmp expand).set :=
      leads_step trivial expand exploration
    obtain ⟨ids, here, visits_eq⟩ := details_moves reserve bound' coherent waits cmp expand
    obtain ⟨ids', later, visits_eq'⟩ := rest (leads.coherent coherent)
    rw [Exploration.movesFor_of_waits waits, List.map_append]
    refine ⟨ids ++ ids', here.append later, ?_⟩
    rw [visits_eq', visits_eq, List.append_assoc]

/-! ## Runs -/

/-- Spelling an operation out changes neither the set it leads to nor the ids
that it hands out. -/
theorem details_spellOut {cmp : Comparator α} {operation : Operation α}
    {first : Outcome α (Answer α)} (coherent : set.Coherent)
    (performed : set.perform reserve bound cmp operation = some first) :
    Details reserve bound set (set.spellOut bound cmp operation) first.set
      first.answer.handedOut := by
  cases operation with
  | explore expand =>
    simp only [perform, explore?, Option.map_map, Option.map_eq_some_iff] at performed
    rcases performed with ⟨result, ended, rfl⟩
    obtain ⟨ids, details, visits_eq⟩ := details_movesFor reserve bound ended coherent
    have ids_eq : result.visits.toList.map Visit.id = ids := by simpa using visits_eq
    rw [← ids_eq] at details
    exact details
  | insert | tryInsert | find | contains | pop | peek | entries | waiting =>
    exact Details.single rfl performed

/-- A run with its explorations spelled out returns, leads to the same set
and hands out the same ids in the same order. -/
theorem details_unroll {outcome : Outcome α (List (Answer α))} (coherent : set.Coherent)
    (ran : run reserve bound set operations = some outcome) :
    Details reserve bound set (unroll reserve bound set operations) outcome.set
      (outcome.answer.flatMap Answer.handedOut) := by
  refine run_induction (motive := fun set operations outcome => set.Coherent →
    Details reserve bound set (unroll reserve bound set operations) outcome.set
      (outcome.answer.flatMap Answer.handedOut)) ran ?_ ?_ coherent
  · intro set _
    exact Details.nil reserve bound set
  · intro set cmp operation operations first later performed rest coherent
    have leads : Leads (fun _ => True) set first.set := leads_of_perform trivial performed
    simp only [unroll, performed, List.flatMap_cons]
    exact (details_spellOut coherent performed).append (rest (leads.coherent coherent))

/-- No exploration is left where explorations are spelled out. -/
theorem explores_eq_false_of_mem_unroll {operation : Comparator α × Operation α}
    (mem : operation ∈ unroll reserve bound set operations) : operation.2.explores = false := by
  induction operations generalizing set with
  | nil => cases mem
  | cons head operations ih =>
    rcases head with ⟨cmp, first⟩
    rcases List.mem_append.1 mem with here | later
    · cases first with
      | explore expand =>
        obtain ⟨move, mem_moves, rfl⟩ := List.mem_map.1 here
        exact Exploration.explores_eq_false_of_mem_movesFor mem_moves
      | insert | tryInsert | find | contains | pop | peek | entries | waiting =>
        rw [List.mem_singleton.1 here]
        rfl
    · split at later
      · cases later
      · exact ih later

end Visited

end StateSearch
