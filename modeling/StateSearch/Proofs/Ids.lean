import StateSearch.Proofs.LastInFirstOut
import StateSearch.Proofs.Placement

/-!
# What ids stand for

An id is all that a caller keeps of an admitted state.  It stands for the key
and the state that it was issued for as long as the set is in use, whatever
the comparators do: admissions, removals and doublings rewrite the records,
but not what an id stands for.  The one change that a caller can see is that
the state is handed out, once.

There are four groups.

* Histories.  `issued` reads off a history which ids were issued, and what
  for.
* Runs and their histories.  A run with its explorations spelled out has the
  answers of the run among its own, `sublist_history_unroll`.
* Answers.  An answer shows no id that the set has not issued.
* The law of ids, `Visited.IdsStand`, at every point of every run.
-/

namespace StateSearch

variable {α : Type}

/-! ## Histories -/

/-- The operations of a run with the answers to them. -/
def history (operations : List (Comparator α × Operation α)) (answers : List (Answer α)) :
    List (Operation α × Answer α) :=
  (operations.map Prod.snd).zip answers

/-- The steps that are no explorations. -/
def singleSteps (steps : List (Operation α × Answer α)) : List (Operation α × Answer α) :=
  steps.filter fun step => !step.1.explores

/-- The id that an operation was answered, with what it was issued for. -/
def issue? (step : Operation α × Answer α) : Option (Entry α) :=
  match step.1.inserted?, step.2.deed? with
  | some (key, state), some (.admitted id) => some { id, key, state }
  | _, _ => none

/-- The ids that were issued, in order, with what they were issued for. -/
def issued (steps : List (Operation α × Answer α)) : List (Entry α) :=
  steps.filterMap issue?

theorem issued_cons (step : Operation α × Answer α) (steps : List (Operation α × Answer α)) :
    issued (step :: steps) = (issue? step).toList ++ issued steps := by
  cases issue : issue? step <;> simp [issued, issue]

/-- An attempt that succeeds issues what the admission issues. -/
theorem issue?_attempt (key : UInt64) (state : α) (given : Verdict α) :
    issue? (.tryInsert key state, .attempt (.ok given)) =
      issue? (.insert key state, .verdict given) := by
  cases given <;> rfl

/-- The ids of admitted states that an answer shows. -/
def Answer.shown : Answer α → List Id
  | .verdict (.duplicate id _) | .attempt (.ok (.duplicate id _)) => [id]
  | .found id | .popped id | .next id => id.toList
  | .entries listed | .waiting listed => listed.map Entry.id
  | .explored report => report.visits.map Visit.id
  | .verdict (.admitted _) | .attempt (.ok (.admitted _)) | .attempt (.error _) | .present _ => []

theorem Answer.shown_attempt (given : Verdict α) :
    (Answer.attempt (.ok given)).shown = (Answer.verdict given).shown := by
  cases given <;> rfl

section

variable {operations operations' : List (Comparator α × Operation α)}
  {answers answers' : List (Answer α)}

theorem history_append (length_eq : answers.length = operations.length) :
    history (operations ++ operations') (answers ++ answers') =
      history operations answers ++ history operations' answers' := by
  rw [history, List.map_append, List.zip_append (by rw [List.length_map, length_eq])]
  rfl

theorem map_snd_history (length_eq : answers.length = operations.length) :
    (history operations answers).map Prod.snd = answers := by
  rw [history, List.map_snd_zip (by rw [List.length_map, length_eq])]

end

namespace Visited

variable {set set' : Visited α} {reserve : Reserve} {bound : Nat} {cmp : Comparator α}
  {operation : Operation α} {first : Outcome α (Answer α)}
  {operations : List (Comparator α × Operation α)} {outcome : Outcome α (List (Answer α))}

/-! ## Runs and their histories -/

/-- A run answers every operation. -/
theorem length_answer_of_run (ran : run reserve bound set operations = some outcome) :
    outcome.answer.length = operations.length := by
  refine run_induction (motive := fun _ operations outcome =>
    outcome.answer.length = operations.length) ran ?_ ?_
  · intro set
    rfl
  · intro set cmp operation operations first later _ rest
    exact congrArg Nat.succ rest

theorem spellOut_of_single (single : operation.explores = false) :
    set.spellOut bound cmp operation = [(cmp, operation)] := by
  cases operation with
  | explore expand => cases single
  | insert | tryInsert | find | contains | pop | peek | entries | waiting => rfl

/-- Where explorations are spelled out the other operations stay, and are
answered as before. -/
theorem sublist_history_unroll {detailed : Outcome α (List (Answer α))} (coherent : set.Coherent)
    (ran : run reserve bound set operations = some outcome)
    (ran' : run reserve bound set (unroll reserve bound set operations) = some detailed) :
    (singleSteps (history operations outcome.answer)).Sublist
      (history (unroll reserve bound set operations) detailed.answer) := by
  induction operations generalizing set outcome detailed with
  | nil => exact List.nil_sublist _
  | cons head operations ih =>
    rcases head with ⟨cmp, operation⟩
    rw [run_cons_eq_some_iff] at ran
    obtain ⟨first, performed, later, ran, rfl⟩ := ran
    have leads : Leads (fun _ => True) set first.set := leads_of_perform trivial performed
    obtain ⟨part, ran_part, part_eq, _⟩ := details_spellOut coherent performed
    simp only [unroll, performed] at ran' ⊢
    simp only [run_append, ran_part, part_eq, Option.bind_some, Option.map_eq_some_iff] at ran'
    obtain ⟨rest, ran_rest, rfl⟩ := ran'
    have later_sublist := ih (leads.coherent coherent) ran ran_rest
    rw [history_append (length_answer_of_run ran_part)]
    -- The operations of an exploration come in addition, and any other
    -- operation stands for itself.
    cases explores : operation.explores with
    | true =>
      have dropped : singleSteps
          (history ((cmp, operation) :: operations) (first.answer :: later.answer)) =
          singleSteps (history operations later.answer) :=
        List.filter_cons_of_neg (by simp [explores])
      rw [dropped]
      exact later_sublist.trans (List.sublist_append_right ..)
    | false =>
      rw [spellOut_of_single explores] at ran_part ⊢
      have alone : run reserve bound set [(cmp, operation)] =
          some ⟨[first.answer], first.set, first.events⟩ := by
        simp [run, performed]
      obtain rfl := Option.some.inj (ran_part.symm.trans alone)
      have head_eq : singleSteps
          (history ((cmp, operation) :: operations) (first.answer :: later.answer)) =
          history [(cmp, operation)] [first.answer] ++
            singleSteps (history operations later.answer) :=
        List.filter_cons_of_pos (by simp [explores])
      rw [head_eq]
      exact (List.Sublist.refl _).append later_sublist

namespace Coherent

variable (coherent : set.Coherent)
include coherent

theorem entries_insert (cmp : Comparator α) (key : UInt64) (state : α) :
    (set.insert cmp key state).set.entries = set.entries ++
      (issue? (.insert key state, .verdict (set.insert cmp key state).answer)).toList := by
  cases coherent.insert_cases_seen cmp key state with
  | inl rejected =>
    obtain ⟨id, answer_eq, admitted_eq, _⟩ := rejected
    rw [answer_eq, entries_eq_of_admitted admitted_eq]
    exact (List.append_nil _).symm
  | inr admits =>
    obtain ⟨answer_eq, admitted_eq, _⟩ := admits
    rw [answer_eq, entries_concat admitted_eq]
    rfl

/-- A single operation adds the entry for the id that it issues. -/
theorem entries_perform (single : operation.explores = false)
    (performed : set.perform reserve bound cmp operation = some first) :
    first.set.entries = set.entries ++ (issue? (operation, first.answer)).toList := by
  cases operation with
  | explore expand => cases single
  | insert key state =>
    obtain rfl := Option.some.inj performed
    exact coherent.entries_insert cmp key state
  | tryInsert key state =>
    obtain rfl := Option.some.inj performed
    cases tryInsert_cases reserve set cmp key state with
    | inl failed =>
      obtain ⟨failure, eq⟩ := failed
      rw [eq]
      exact (List.append_nil _).symm
    | inr eq =>
      have inserted := coherent.entries_insert cmp key state
      rw [← issue?_attempt] at inserted
      rw [eq]
      exact inserted
  | pop =>
    obtain rfl := Option.some.inj performed
    exact (entries_eq_of_admitted (admitted_pop set)).trans (List.append_nil _).symm
  | find | contains | peek | entries | waiting =>
    obtain rfl := Option.some.inj performed
    exact (List.append_nil _).symm

/-- A run lists the ids that it issues, with what they were issued for. -/
theorem entries_run (single : ∀ operation ∈ operations, operation.2.explores = false)
    (ran : run reserve bound set operations = some outcome) :
    outcome.set.entries = set.entries ++ issued (history operations outcome.answer) := by
  refine run_induction (motive := fun set operations outcome =>
    outcome.set.entries = set.entries ++ issued (history operations outcome.answer)) ?_ ?_ coherent
    single ran
  · intro set
    exact (List.append_nil _).symm
  · intro set cmp operation operations first later coherent single performed rest
    show _ = _ ++ issued ((operation, first.answer) :: history operations later.answer)
    rw [issued_cons, ← List.append_assoc, ← coherent.entries_perform single performed]
    exact rest

/-! ## Answers -/

/-- What a lookup finds has a record. -/
theorem lt_size_of_find? {key : UInt64} {candidate : α} {id : Id}
    (found : set.find? cmp key candidate = some id) : id < set.size := by
  rw [coherent.find?_eq, ListTable.find?, Option.filter_eq_some_iff] at found
  have mem : id ∈ set.chain (key.toNat % set.bucketCount) := List.mem_of_find?_eq_some found.1
  obtain ⟨record, stored, _⟩ := Store.belongs_iff.1 (coherent.mem_chain_iff.1 mem)
  exact (Array.getElem?_eq_some_iff.1 stored).1

/-- A candidate is rejected for a state that was in the set before, even if
it was found only after a doubling. -/
theorem lt_size_of_shown_insert {key : UInt64} {state : α} {id : Id}
    (shown : id ∈ (Answer.verdict (set.insert cmp key state).answer).shown) : id < set.size := by
  revert shown
  refine insert_cases (motive := fun outcome => id ∈ (Answer.verdict outcome.answer).shown →
    id < set.size) ?_ ?_ ?_ ?_
  · intro other found shown
    rw [List.mem_singleton.1 shown]
    exact coherent.lt_size_of_find? (find?_eq_some_iff_lookup.2 found)
  · intro after _ _ shown
    cases shown
  · intro after other _ _ found shown
    have lt := coherent.double.lt_size_of_find? (find?_eq_some_iff_lookup.2 found)
    rw [List.mem_singleton.1 shown]
    rwa [size_double] at lt
  · intro after after' _ _ _ shown
    cases shown

theorem lt_size_of_mem_head? {id : Id} (mem : id ∈ set.stack.head?.toList) : id < set.size :=
  coherent.lt_size_of_mem_stack (List.mem_of_head? (Option.mem_toList.1 mem))

/-- The answer to a single operation shows ids that were issued before. -/
theorem lt_size_of_shown (single : operation.explores = false)
    (performed : set.perform reserve bound cmp operation = some first) {id : Id}
    (shown : id ∈ first.answer.shown) : id < set.size := by
  cases operation with
  | explore expand => cases single
  | insert key state =>
    obtain rfl := Option.some.inj performed
    exact coherent.lt_size_of_shown_insert shown
  | tryInsert key state =>
    obtain rfl := Option.some.inj performed
    cases tryInsert_cases reserve set cmp key state with
    | inl failed =>
      obtain ⟨failure, eq⟩ := failed
      rw [eq] at shown
      cases shown
    | inr eq =>
      have same := Answer.shown_attempt (set.insert cmp key state).answer
      rw [eq] at shown
      exact coherent.lt_size_of_shown_insert (same ▸ shown)
  | find key state =>
    obtain rfl := Option.some.inj performed
    exact coherent.lt_size_of_find? (Option.mem_toList.1 shown)
  | contains key state =>
    obtain rfl := Option.some.inj performed
    cases shown
  | pop =>
    rw [perform_pop, coherent.pop_fst] at performed
    obtain rfl := Option.some.inj performed
    exact coherent.lt_size_of_mem_head? shown
  | peek =>
    rw [Visited.perform, coherent.peek?_eq] at performed
    obtain rfl := Option.some.inj performed
    exact coherent.lt_size_of_mem_head? shown
  | entries =>
    obtain rfl := Option.some.inj performed
    have mem : id ∈ set.entries.map Entry.id := shown
    rw [map_id_entries] at mem
    exact List.mem_range.1 mem
  | waiting =>
    obtain rfl := Option.some.inj performed
    have mem : id ∈ set.waiting.map Entry.id := shown
    rw [coherent.map_id_waiting] at mem
    exact coherent.lt_size_of_mem_stack mem

end Coherent

/-! ## The law of ids -/

/-- What ids stand for after single operations with these answers. -/
structure IdsStand (steps : List (Operation α × Answer α)) (set : Visited α) : Prop where
  /-- The set lists the issued ids with what they were issued for. -/
  entries_eq : set.entries = issued steps
  /-- No id was issued twice. -/
  nodup : ((issued steps).map Entry.id).Nodup
  key?_eq : ∀ entry ∈ issued steps, set.key? entry.id = some entry.key
  state?_eq : ∀ entry ∈ issued steps, set.state? entry.id = some entry.state
  /-- An id is marked until it is handed out, and not any more then. -/
  isQueued?_eq : ∀ entry ∈ issued steps, set.isQueued? entry.id =
    some (decide (entry.id ∉ handedOut (deeds (steps.map Prod.snd))))
  /-- No id was handed out twice. -/
  once : (handedOut (deeds (steps.map Prod.snd))).Nodup
  /-- Whatever is asked next, the answer shows no other ids. -/
  shown : ∀ reserve bound cmp operation next, operation.explores = false →
    set.perform reserve bound cmp operation = some next →
    ∀ id ∈ next.answer.shown, id ∈ (issued steps).map Entry.id

/-- The entries and the books of a run together are the law. -/
theorem Accounts.idsStand {steps : List (Operation α × Answer α)}
    (accounts : Accounts (deeds (steps.map Prod.snd)) set)
    (entries_eq : set.entries = issued steps) : IdsStand steps set := by
  have coherent := accounts.coherent
  have ids_eq : (issued steps).map Entry.id = List.range set.size := by
    rw [← entries_eq, map_id_entries]
  have nodup := accounts.perm.nodup_iff.2 List.nodup_range
  have found : ∀ entry ∈ issued steps, set.get? entry.id = some entry := by
    intro entry mem
    rw [← entries_eq] at mem
    exact mem_entries_iff.1 mem
  refine ⟨entries_eq, ids_eq ▸ List.nodup_range, ?_, ?_, ?_, (List.nodup_append.1 nodup).1, ?_⟩
  · intro entry mem
    have key?_eq : set.key? entry.id = (set.get? entry.id).map Entry.key := by
      rw [get?, key?, Option.map_map]
      rfl
    rw [key?_eq, found entry mem]
    rfl
  · intro entry mem
    rw [← map_state_get?, found entry mem]
    rfl
  · intro entry mem
    have issued_here : entry.id ∈ List.range set.size := ids_eq ▸ List.mem_map_of_mem mem
    have either := List.mem_append.1 (accounts.perm.mem_iff.2 issued_here)
    have apart := (List.nodup_append.1 nodup).2.2
    rw [coherent.isQueued?_eq, if_pos (List.mem_range.1 issued_here), Option.some.injEq,
      decide_eq_decide]
    constructor
    · intro waits gone
      exact apart _ gone _ waits rfl
    · intro stays
      exact either.resolve_left stays
  · intro reserve bound cmp operation next single performed id shown
    rw [ids_eq]
    exact List.mem_range.2 (coherent.lt_size_of_shown single performed shown)

/-- After a run without explorations the ids stand for what they were issued
for. -/
theorem idsStand_of_single {count : Nat} (valid : ValidBucketCount count)
    (single : ∀ operation ∈ operations, operation.2.explores = false)
    (ran : run reserve bound (ofCount count) operations = some outcome) :
    IdsStand (history operations outcome.answer) outcome.set := by
  have accounts := (accounts_ofCount valid).run single ran
  have entries_eq := (coherent_ofCount valid).entries_run single ran
  rw [List.nil_append, ← map_snd_history (length_answer_of_run ran)] at accounts
  exact accounts.idsStand entries_eq

/-- Whatever the comparators do, ids keep standing for what they were issued
for, at every point of every run, and nothing but issued ids comes up.  The
points of a run are those of the run with its explorations spelled out, which
has the same answers to the other operations, hands out the same ids and
leads to the same set. -/
theorem idsStand_of_run {count : Nat} (valid : ValidBucketCount count)
    (ran : run reserve bound (ofCount count) operations = some outcome) :
    ∃ detailed, run reserve bound (ofCount count)
        (unroll reserve bound (ofCount count) operations) = some detailed ∧
      detailed.set = outcome.set ∧
      handedOut (deeds detailed.answer) = outcome.answer.flatMap Answer.handedOut ∧
      (singleSteps (history operations outcome.answer)).Sublist
        (history (unroll reserve bound (ofCount count) operations) detailed.answer) ∧
      ∀ before, before <+: unroll reserve bound (ofCount count) operations →
        ∃ early, run reserve bound (ofCount count) before = some early ∧
          early.answer <+: detailed.answer ∧
          IdsStand (history before early.answer) early.set := by
  obtain ⟨detailed, ran', set_eq, ids_eq⟩ := details_unroll (coherent_ofCount valid) ran
  refine ⟨detailed, ran', set_eq, ids_eq,
    sublist_history_unroll (coherent_ofCount valid) ran ran', ?_⟩
  intro before front
  obtain ⟨after, cut⟩ := front
  have single : ∀ operation ∈ before, operation.2.explores = false := by
    intro operation mem
    have mem_all : operation ∈ unroll reserve bound (ofCount count) operations := by
      rw [← cut]
      exact List.mem_append_left _ mem
    exact explores_eq_false_of_mem_unroll mem_all
  rw [← cut, run_append, Option.bind_eq_some_iff] at ran'
  obtain ⟨early, ran_early, rest⟩ := ran'
  obtain ⟨later, _, rfl⟩ := Option.map_eq_some_iff.1 rest
  exact ⟨early, ran_early, List.prefix_append .., idsStand_of_single valid single ran_early⟩

/-- States are met again and looked for under a comparator that no order
allows, before and after an exploration. -/
theorem idsStand_of_run_jumble :
    let cmp : Comparator Nat := fun a b => if a = b then .eq else .gt
    let shrink : Expander Nat := .ofSuccessors fun n => [(7, n / 2), (1031, n / 3)]
    let operations := [(cmp, .insert 7 4), (cmp, .tryInsert 1031 9), (cmp, .pop),
      (cmp, .insert 1031 9), (cmp, .explore shrink), (cmp, .find 7 2), (cmp, .entries)]
    ValidBucketCount 1024 ∧ ∃ outcome, run .always 9 (ofCount 1024) operations = some outcome ∧
      ∃ detailed, run .always 9 (ofCount 1024) (unroll .always 9 (ofCount 1024) operations) =
          some detailed ∧
        detailed.set = outcome.set ∧
        handedOut (deeds detailed.answer) = outcome.answer.flatMap Answer.handedOut ∧
        (singleSteps (history operations outcome.answer)).Sublist
          (history (unroll .always 9 (ofCount 1024) operations) detailed.answer) ∧
        ∀ before, before <+: unroll .always 9 (ofCount 1024) operations →
          ∃ early, run .always 9 (ofCount 1024) before = some early ∧
            early.answer <+: detailed.answer ∧
            IdsStand (history before early.answer) early.set := by
  intro cmp shrink operations
  have returns : (run .always 9 (ofCount 1024) operations).isSome = true := by decide +kernel
  obtain ⟨outcome, ran⟩ := Option.isSome_iff_exists.1 returns
  exact ⟨validBucketCount_minBuckets, outcome, ran,
    idsStand_of_run validBucketCount_minBuckets ran⟩

end Visited

end StateSearch
