import StateSearch.Proofs.PlainRuns
import StateSearch.Proofs.Unrolling

/-!
# Buckets and worklist apart

The buckets and the worklist thread their links through the same records, and
an admission changes both.  Still neither shows through the other, whatever
the comparators do.  What candidates meet in the buckets does not depend on
what was handed out or looked up before, and which ids wait depends on
nothing but the order of admissions and removals.

There are five groups.

* Runs with operations left out, and the answers that come from the buckets.
* Sets that cannot be told apart by their buckets, `Visited.Twins`.
* Runs of twins.
* Turns.  `Coherent.lineUp_run` computes the worklist from the turns of a
  run, and `Coherent.told_run` what the run tells of it.
* Both together.
-/

namespace StateSearch

variable {α β : Type}

/-! ## Runs with operations left out -/

/-- The marked items, in order. -/
def kept (marked : List (Bool × β)) : List β :=
  (marked.filter Prod.fst).map Prod.snd

@[simp] theorem kept_cons_true (item : β) (marked : List (Bool × β)) :
    kept ((true, item) :: marked) = item :: kept marked :=
  rfl

@[simp] theorem kept_cons_false (item : β) (marked : List (Bool × β)) :
    kept ((false, item) :: marked) = kept marked :=
  rfl

/-- The answer, if it comes from the buckets and the admitted states alone. -/
def Answer.ofBuckets? : Answer α → Option (Answer α)
  | .verdict given => some (.verdict given)
  | .attempt result => some (.attempt result)
  | .found id => some (.found id)
  | .present given => some (.present given)
  | .entries listed => some (.entries listed)
  | .popped _ | .next _ | .waiting _ | .explored _ => none

namespace Visited

variable {set set' : Visited α} {reserve : Reserve} {bound : Nat} {cmp : Comparator α}
  {operation : Operation α} {first : Outcome α (Answer α)}

/-- The two sets admitted the same and have the same chains. -/
structure SameBuckets (set set' : Visited α) : Prop where
  entries_eq : set'.entries = set.entries
  bucketCount_eq : set'.bucketCount = set.bucketCount
  doublings_eq : set'.doublings = set.doublings
  chain_eq : set'.chain = set.chain

/-! ## Twins -/

/-- Two sets in order that differ in their worklists only. -/
structure Twins (set set' : Visited α) : Prop where
  coherent : set.Coherent
  coherent' : set'.Coherent
  listTable_eq : set'.listTable = set.listTable
  doublings_eq : set'.doublings = set.doublings

theorem Twins.refl (coherent : set.Coherent) : Twins set set :=
  ⟨coherent, coherent, rfl, rfl⟩

/-- An admission reports the doubling that it takes. -/
theorem events_insert (set : Visited α) (cmp : Comparator α) (key : UInt64) (state : α) :
    (set.insert cmp key state).events =
      if (set.find? cmp key state).isNone && set.isFull then [.doubled set.bucketCount set.size]
      else [] := by
  refine insert_cases (motive := fun outcome => outcome.events =
    if (set.find? cmp key state).isNone && set.isFull then [.doubled set.bucketCount set.size]
    else []) ?_ ?_ ?_ ?_
  · intro id found
    rw [find?_eq_some_iff_lookup.2 found]
    rfl
  · intro after _ loose
    rw [loose, Bool.and_false]
    rfl
  · intro after id absent full _
    rw [find?_eq_none_iff_lookup.2 ⟨after, absent⟩, full]
    rfl
  · intro after after' absent full _
    rw [find?_eq_none_iff_lookup.2 ⟨after, absent⟩, full]
    rfl

/-- Each doubling that an admission reports is counted. -/
theorem doublings_insert (set : Visited α) (cmp : Comparator α) (key : UInt64) (state : α) :
    (set.insert cmp key state).set.doublings =
      set.doublings + (set.insert cmp key state).events.length := by
  refine insert_cases (motive := fun outcome =>
    outcome.set.doublings = set.doublings + outcome.events.length) ?_ ?_ ?_ ?_
  · intro id _
    rfl
  · intro after _ _
    exact doublings_place ..
  · intro after id _ _ _
    exact doublings_double set
  · intro after after' _ _ _
    exact (doublings_place ..).trans (doublings_double set)

/-- Why an attempt to admit a candidate fails. -/
def refusal? (reserve : Reserve) (set : Visited α) (cmp : Comparator α) (key : UInt64)
    (state : α) : Option Failure :=
  if (set.find? cmp key state).isNone && set.isFull then
    match reserveDouble reserve set.bucketCount with
    | .error failure => some failure
    | .ok () => none
  else none

/-- An attempt that is not refused is the admission. -/
theorem tryInsert_eq (reserve : Reserve) (set : Visited α) (cmp : Comparator α) (key : UInt64)
    (state : α) :
    set.tryInsert reserve cmp key state =
      match set.refusal? reserve cmp key state with
      | some failure => { answer := .error failure, set }
      | none => (set.insert cmp key state).map .ok := by
  unfold refusal?
  cases looked : set.lookup cmp key state with
  | found id =>
    rw [find?_eq_some_iff_lookup.2 looked]
    simp [tryInsert, Visited.insert, looked, Outcome.map]
  | absent after =>
    rw [find?_eq_none_iff_lookup.2 ⟨after, looked⟩]
    cases full : set.isFull with
    | false => simp [tryInsert, looked, full]
    | true =>
      cases room : reserveDouble reserve set.bucketCount with
      | error failure => simp [tryInsert, looked, full, room]
      | ok => simp [tryInsert, looked, full, room]

namespace Twins

variable (twins : Twins set set')
include twins

theorem sameBuckets : SameBuckets set set' where
  entries_eq := entries_eq_of_admitted (congrArg ListTable.admitted twins.listTable_eq)
  bucketCount_eq := congrArg ListTable.count twins.listTable_eq
  doublings_eq := twins.doublings_eq
  chain_eq := congrArg ListTable.bucket twins.listTable_eq

theorem size_eq : set'.size = set.size := by
  have admitted_eq : set'.admitted = set.admitted :=
    congrArg ListTable.admitted twins.listTable_eq
  rw [← length_admitted, admitted_eq, length_admitted]

theorem isFull_eq : set'.isFull = set.isFull := by
  rw [Bool.eq_iff_iff, twins.coherent'.isFull_iff, twins.coherent.isFull_iff, twins.size_eq,
    twins.sameBuckets.bucketCount_eq]

theorem find?_eq (cmp : Comparator α) (key : UInt64) (candidate : α) :
    set'.find? cmp key candidate = set.find? cmp key candidate := by
  rw [twins.coherent'.find?_eq, twins.coherent.find?_eq, twins.listTable_eq]

theorem refusal?_eq (reserve : Reserve) (cmp : Comparator α) (key : UInt64) (state : α) :
    set'.refusal? reserve cmp key state = set.refusal? reserve cmp key state := by
  unfold refusal?
  rw [twins.find?_eq, twins.isFull_eq, twins.sameBuckets.bucketCount_eq]

theorem insert (cmp : Comparator α) (key : UInt64) (state : α) :
    (set'.insert cmp key state).answer = (set.insert cmp key state).answer ∧
      (set'.insert cmp key state).events = (set.insert cmp key state).events ∧
      Twins (set.insert cmp key state).set (set'.insert cmp key state).set := by
  -- Both admissions are the admission to the one table of lists.
  have table := twins.coherent.listTable_insert cmp key state
  have table' := twins.coherent'.listTable_insert cmp key state
  rw [twins.listTable_eq, ← table] at table'
  obtain ⟨answer_eq, listTable_eq⟩ := Prod.mk.inj table'
  have events_eq : (set'.insert cmp key state).events = (set.insert cmp key state).events := by
    rw [events_insert, events_insert, twins.find?_eq, twins.isFull_eq, twins.size_eq,
      twins.sameBuckets.bucketCount_eq]
  refine ⟨answer_eq, events_eq, twins.coherent.insert cmp key state,
    twins.coherent'.insert cmp key state, listTable_eq, ?_⟩
  rw [doublings_insert, doublings_insert, events_eq, twins.doublings_eq]

theorem tryInsert (reserve : Reserve) (cmp : Comparator α) (key : UInt64) (state : α) :
    (set'.tryInsert reserve cmp key state).answer = (set.tryInsert reserve cmp key state).answer ∧
      (set'.tryInsert reserve cmp key state).events =
        (set.tryInsert reserve cmp key state).events ∧
      Twins (set.tryInsert reserve cmp key state).set
        (set'.tryInsert reserve cmp key state).set := by
  rw [tryInsert_eq, tryInsert_eq, twins.refusal?_eq]
  cases set.refusal? reserve cmp key state with
  | some failure => exact ⟨rfl, rfl, twins⟩
  | none =>
    obtain ⟨answer_eq, events_eq, twins'⟩ := twins.insert cmp key state
    exact ⟨congrArg Except.ok answer_eq, events_eq, twins'⟩

/-- Handing out from one of two twins leaves them twins. -/
theorem pop_left : Twins set.pop.2 set' :=
  ⟨twins.coherent.pop, twins.coherent', twins.listTable_eq.trans twins.coherent.listTable_pop.symm,
    twins.doublings_eq⟩

theorem pop_right : Twins set set'.pop.2 :=
  ⟨twins.coherent, twins.coherent'.pop, twins.coherent'.listTable_pop.trans twins.listTable_eq,
    twins.doublings_eq⟩

/-! ## Runs of twins -/

/-- Twins give the same answers from their buckets, and stay twins. -/
theorem perform (single : operation.explores = false)
    (performed : set.perform reserve bound cmp operation = some first) :
    ∃ first', set'.perform reserve bound cmp operation = some first' ∧
      first'.answer.ofBuckets? = first.answer.ofBuckets? ∧ first'.events = first.events ∧
      Twins first.set first'.set := by
  cases operation with
  | explore expand => cases single
  | insert key state =>
    obtain rfl := Option.some.inj performed
    obtain ⟨answer_eq, events_eq, twins'⟩ := twins.insert cmp key state
    exact ⟨_, rfl, congrArg (Answer.ofBuckets? ∘ Answer.verdict) answer_eq, events_eq, twins'⟩
  | tryInsert key state =>
    obtain rfl := Option.some.inj performed
    obtain ⟨answer_eq, events_eq, twins'⟩ := twins.tryInsert reserve cmp key state
    exact ⟨_, rfl, congrArg (Answer.ofBuckets? ∘ Answer.attempt) answer_eq, events_eq, twins'⟩
  | find key state =>
    obtain rfl := Option.some.inj performed
    have same := twins.find?_eq cmp key state
    exact ⟨_, rfl, congrArg (Answer.ofBuckets? ∘ Answer.found) same, rfl, twins⟩
  | contains key state =>
    obtain rfl := Option.some.inj performed
    have same := congrArg Option.isSome (twins.find?_eq cmp key state)
    exact ⟨_, rfl, congrArg (Answer.ofBuckets? ∘ Answer.present) same, rfl, twins⟩
  | pop =>
    obtain rfl := Option.some.inj performed
    exact ⟨_, rfl, rfl, rfl, twins.pop_left.pop_right⟩
  | entries =>
    obtain rfl := Option.some.inj performed
    have same := twins.sameBuckets.entries_eq
    exact ⟨_, rfl, congrArg (Answer.ofBuckets? ∘ Answer.entries) same, rfl, twins⟩
  | peek | waiting =>
    obtain rfl := Option.some.inj performed
    exact ⟨_, rfl, rfl, rfl, twins⟩

/-- An operation that inserts nothing may be left out. -/
theorem leaveOut (single : operation.explores = false) (nothing : operation.inserted? = none)
    (performed : set.perform reserve bound cmp operation = some first) :
    first.events = [] ∧ Twins first.set set' := by
  cases operation with
  | explore expand => cases single
  | insert | tryInsert => cases nothing
  | pop =>
    obtain rfl := Option.some.inj performed
    exact ⟨rfl, twins.pop_left⟩
  | find | contains | peek | entries | waiting =>
    obtain rfl := Option.some.inj performed
    exact ⟨rfl, twins⟩

/-- A run goes on as before where operations that insert nothing are left
out. -/
theorem run {marked : List (Bool × Comparator α × Operation α)}
    {outcome : Outcome α (List (Answer α))}
    (single : ∀ entry ∈ marked, entry.2.2.explores = false)
    (nothing : ∀ entry ∈ marked, entry.1 = false → entry.2.2.inserted? = none)
    (ran : run reserve bound set (marked.map Prod.snd) = some outcome) :
    ∃ thinned, Visited.run reserve bound set' (kept marked) = some thinned ∧
      thinned.answer.map Answer.ofBuckets? =
        (kept ((marked.map Prod.fst).zip outcome.answer)).map Answer.ofBuckets? ∧
      thinned.events = outcome.events ∧ Twins outcome.set thinned.set := by
  induction marked generalizing set set' outcome with
  | nil =>
    obtain rfl := Option.some.inj ran
    exact ⟨_, rfl, rfl, rfl, twins⟩
  | cons entry marked ih =>
    rcases entry with ⟨keep, cmp, operation⟩
    rw [List.map_cons, run_cons_eq_some_iff] at ran
    obtain ⟨first, performed, later, ran, rfl⟩ := ran
    have single_first := single _ List.mem_cons_self
    have single_rest := fun other mem => single other (List.mem_cons_of_mem _ mem)
    have nothing_rest := fun other mem => nothing other (List.mem_cons_of_mem _ mem)
    cases keep with
    | true =>
      obtain ⟨first', performed', answer_eq, events_eq, twins'⟩ :=
        twins.perform single_first performed
      obtain ⟨thinned, ran', answers_eq, events_eq', twins''⟩ :=
        ih twins' single_rest nothing_rest ran
      refine ⟨⟨first'.answer :: thinned.answer, thinned.set, first'.events ++ thinned.events⟩,
        ?_, ?_, ?_, twins''⟩
      · rw [kept_cons_true, Visited.run, performed', Option.bind_some, ran']
        rfl
      · simp only [List.map_cons, List.zip_cons_cons, kept_cons_true, answer_eq, answers_eq]
      · rw [events_eq, events_eq']
    | false =>
      obtain ⟨events_eq, twins'⟩ :=
        twins.leaveOut single_first (nothing _ List.mem_cons_self rfl) performed
      obtain ⟨thinned, ran', answers_eq, events_eq', twins''⟩ :=
        ih twins' single_rest nothing_rest ran
      refine ⟨thinned, ran', answers_eq, ?_, twins''⟩
      rw [events_eq, events_eq', List.nil_append]

end Twins

end Visited

/-! ## Turns -/

/-- A change of the worklist, whichever state it is about. -/
inductive Turn where
  | admission
  | removal
deriving DecidableEq

/-- The turn that an answer tells of.  Handing out is a turn also where
nothing waits. -/
def Answer.turn? : Answer α → Option Turn
  | .verdict (.admitted _) | .attempt (.ok (.admitted _)) => some .admission
  | .popped _ => some .removal
  | _ => none

/-- An attempt that succeeds is the same turn as an admission. -/
theorem Answer.turn?_attempt (given : Verdict α) :
    (Answer.attempt (.ok given)).turn? = (Answer.verdict given).turn? := by
  cases given <;> rfl

/-- The turns of a run. -/
def turns (answers : List (Answer α)) : List Turn :=
  answers.filterMap Answer.turn?

theorem turns_cons (answer : Answer α) (answers : List (Answer α)) :
    turns (answer :: answers) = answer.turn?.toList ++ turns answers := by
  cases turn : answer.turn? <;> simp [turns, turn]

/-- What a turn does to the next id and to the waiting ids. -/
def Turn.apply : Nat × List Id → Turn → Nat × List Id
  | (next, stack), .admission => (next + 1, next :: stack)
  | (next, stack), .removal => (next, stack.tail)

/-- What a caller can ask the worklist. -/
inductive Question where
  /-- Which id comes next. -/
  | next
  /-- Which ids wait. -/
  | all
deriving DecidableEq

/-- The ids that answer a question, if these wait. -/
def Question.ids (stack : List Id) : Question → List Id
  | .next => stack.head?.toList
  | .all => stack

/-- The question about the worklist that an answer is to, and the ids that it
tells. -/
def Answer.told? : Answer α → Option (Question × List Id)
  | .popped id | .next id => some (.next, id.toList)
  | .waiting listed => some (.all, listed.map Entry.id)
  | _ => none

namespace Visited

variable {set : Visited α} {reserve : Reserve} {bound : Nat} {cmp : Comparator α}
  {operation : Operation α} {first : Outcome α (Answer α)}

/-- The next id and the waiting ids. -/
def lineUp (set : Visited α) : Nat × List Id :=
  (set.size, set.stack)

namespace Coherent

variable (coherent : set.Coherent)
include coherent

theorem lineUp_insert (cmp : Comparator α) (key : UInt64) (state : α) :
    (set.insert cmp key state).set.lineUp =
      (Answer.verdict (set.insert cmp key state).answer).turn?.toList.foldl Turn.apply
        set.lineUp := by
  rcases coherent.insert_cases_seen cmp key state with
    ⟨id, answer_eq, admitted_eq, stack_eq⟩ | ⟨answer_eq, admitted_eq, stack_eq⟩
  · have size_eq := size_eq_of_admitted (admitted_eq.trans (List.append_nil _).symm)
    rw [answer_eq, lineUp, size_eq, stack_eq]
    rfl
  · rw [answer_eq, lineUp, size_eq_of_admitted admitted_eq, stack_eq]
    rfl

/-- A single operation changes the worklist by the turn that its answer
tells of. -/
theorem lineUp_perform (single : operation.explores = false)
    (performed : set.perform reserve bound cmp operation = some first) :
    first.set.lineUp = first.answer.turn?.toList.foldl Turn.apply set.lineUp := by
  cases operation with
  | explore expand => cases single
  | insert key state =>
    obtain rfl := Option.some.inj performed
    exact coherent.lineUp_insert cmp key state
  | tryInsert key state =>
    obtain rfl := Option.some.inj performed
    cases tryInsert_cases reserve set cmp key state with
    | inl failed =>
      obtain ⟨failure, eq⟩ := failed
      rw [eq]
      rfl
    | inr eq =>
      have inserted := coherent.lineUp_insert cmp key state
      rw [← Answer.turn?_attempt] at inserted
      rw [eq]
      exact inserted
  | pop =>
    rw [perform_pop] at performed
    obtain rfl := Option.some.inj performed
    show (set.pop.2.size, set.pop.2.stack) = (set.size, set.stack.tail)
    rw [size_pop, coherent.stack_pop]
  | find | contains | peek | entries | waiting =>
    obtain rfl := Option.some.inj performed
    rfl

/-- What a single operation tells of the worklist depends on the waiting ids
alone. -/
theorem told_perform (single : operation.explores = false)
    (performed : set.perform reserve bound cmp operation = some first) {question : Question}
    {ids : List Id} (told : first.answer.told? = some (question, ids)) :
    ids = question.ids set.lineUp.2 := by
  cases operation with
  | explore expand => cases single
  | pop =>
    rw [perform_pop] at performed
    obtain rfl := Option.some.inj performed
    obtain ⟨rfl, rfl⟩ := Prod.mk.inj (Option.some.inj told)
    exact congrArg Option.toList coherent.pop_fst
  | peek =>
    obtain rfl := Option.some.inj performed
    obtain ⟨rfl, rfl⟩ := Prod.mk.inj (Option.some.inj told)
    exact congrArg Option.toList coherent.peek?_eq
  | waiting =>
    obtain rfl := Option.some.inj performed
    obtain ⟨rfl, rfl⟩ := Prod.mk.inj (Option.some.inj told)
    exact coherent.map_id_waiting
  | insert | tryInsert | find | contains | entries =>
    obtain rfl := Option.some.inj performed
    cases told

variable {operations : List (Comparator α × Operation α)} {outcome : Outcome α (List (Answer α))}
  (single : ∀ operation ∈ operations, operation.2.explores = false)
  (ran : run reserve bound set operations = some outcome)
include single ran

/-- The worklist after a run follows from its turns. -/
theorem lineUp_run : outcome.set.lineUp = (turns outcome.answer).foldl Turn.apply set.lineUp := by
  refine run_induction (motive := fun set _ outcome =>
    outcome.set.lineUp = (turns outcome.answer).foldl Turn.apply set.lineUp) ?_ ?_ coherent single
    ran
  · intro set
    rfl
  · intro set cmp operation operations first later coherent single performed rest
    rw [turns_cons, List.foldl_append, ← coherent.lineUp_perform single performed]
    exact rest

/-- What a run tells of the worklist follows from the turns before. -/
theorem told_run {before after : List (Answer α)} {answer : Answer α}
    (cut : outcome.answer = before ++ answer :: after) {question : Question} {ids : List Id}
    (told : answer.told? = some (question, ids)) :
    ids = question.ids ((turns before).foldl Turn.apply set.lineUp).2 := by
  -- The cut is at another place in the rest of the run.
  revert before
  refine run_induction (motive := fun set _ outcome => ∀ {before : List (Answer α)},
    outcome.answer = before ++ answer :: after →
      ids = question.ids ((turns before).foldl Turn.apply set.lineUp).2) ?_ ?_ coherent single ran
  · intro set before cut
    cases before <;> cases cut
  · intro set cmp operation operations first later coherent single performed rest before cut
    cases before with
    | nil =>
      obtain ⟨answer_eq, _⟩ := List.cons.inj cut
      rw [← answer_eq] at told
      exact coherent.told_perform single performed told
    | cons early before =>
      obtain ⟨answer_eq, cut⟩ := List.cons.inj cut
      rw [← answer_eq, turns_cons, List.foldl_append, ← coherent.lineUp_perform single performed]
      exact rest cut

end Coherent

/-! ## Both together -/

/-- Wherever two runs have taken the same turns, they tell the same ids. -/
structure TurnsDecide (outcome : Outcome α (List (Answer α)))
    (outcome' : Outcome β (List (Answer β))) : Prop where
  told_eq : ∀ before answer after before' answer' after' question ids ids',
    outcome.answer = before ++ answer :: after → outcome'.answer = before' ++ answer' :: after' →
    turns before = turns before' → answer.told? = some (question, ids) →
    answer'.told? = some (question, ids') → ids' = ids
  waiting_eq : turns outcome.answer = turns outcome'.answer →
    outcome'.set.waiting.map Entry.id = outcome.set.waiting.map Entry.id
  peek?_eq : turns outcome.answer = turns outcome'.answer → outcome'.set.peek? = outcome.set.peek?
  pending_eq : turns outcome.answer = turns outcome'.answer →
    outcome'.set.pending = outcome.set.pending

/-- Runs without explorations from empty sets are decided by their turns. -/
theorem turnsDecide_of_run {count count' : Nat} (valid : ValidBucketCount count)
    (valid' : ValidBucketCount count') {reserve reserve' : Reserve} {bound bound' : Nat}
    {operations : List (Comparator α × Operation α)}
    {operations' : List (Comparator β × Operation β)} {outcome : Outcome α (List (Answer α))}
    {outcome' : Outcome β (List (Answer β))}
    (single : ∀ operation ∈ operations, operation.2.explores = false)
    (single' : ∀ operation ∈ operations', operation.2.explores = false)
    (ran : run reserve bound (ofCount count) operations = some outcome)
    (ran' : run reserve' bound' (ofCount count') operations' = some outcome') :
    TurnsDecide outcome outcome' := by
  have leads : Leads (fun _ => True) (ofCount count) outcome.set :=
    leads_of_run (fun _ _ => trivial) ran
  have leads' : Leads (fun _ => True) (ofCount count') outcome'.set :=
    leads_of_run (fun _ _ => trivial) ran'
  have coherent := leads.coherent (coherent_ofCount valid)
  have coherent' := leads'.coherent (coherent_ofCount valid')
  have stack_eq : turns outcome.answer = turns outcome'.answer →
      outcome'.set.stack = outcome.set.stack := by
    intro same
    have ended := (coherent_ofCount valid).lineUp_run single ran
    have ended' := (coherent_ofCount valid').lineUp_run single' ran'
    rw [← same] at ended'
    exact congrArg Prod.snd (ended'.trans ended.symm)
  refine ⟨?_, ?_, ?_, ?_⟩
  · intro before answer after before' answer' after' question ids ids' cut cut' same told told'
    have ids_eq := (coherent_ofCount valid).told_run single ran cut told
    have ids_eq' := (coherent_ofCount valid').told_run single' ran' cut' told'
    rw [← same] at ids_eq'
    exact ids_eq'.trans ids_eq.symm
  · intro same
    rw [coherent'.map_id_waiting, coherent.map_id_waiting, stack_eq same]
  · intro same
    rw [coherent'.peek?_eq, coherent.peek?_eq, stack_eq same]
  · intro same
    rw [coherent'.pending_eq, coherent.pending_eq, stack_eq same]

/-- Whatever the comparators do, removals, lookups and listings can be left
out of a run, and the other operations still get their answers from the same
buckets.  In turn the ids that wait depend on the order of admissions and
removals alone; they are the same in another run that takes the same turns,
be its states, keys, comparators and buckets what they may. -/
theorem exists_run_kept {count count' : Nat} (valid : ValidBucketCount count)
    (valid' : ValidBucketCount count') (reserve reserve' : Reserve) (bound bound' : Nat)
    {marked : List (Bool × Comparator α × Operation α)}
    {others : List (Comparator β × Operation β)}
    (returns : ∀ entry ∈ marked, entry.2.2.explores = false)
    (returns' : ∀ operation ∈ others, operation.2.explores = false)
    (nothing : ∀ entry ∈ marked, entry.1 = false → entry.2.2.inserted? = none) :
    ∃ outcome thinned other,
      run reserve bound (ofCount count) (marked.map Prod.snd) = some outcome ∧
      run reserve bound (ofCount count) (kept marked) = some thinned ∧
      run reserve' bound' (ofCount count') others = some other ∧
      thinned.answer.map Answer.ofBuckets? =
        (kept ((marked.map Prod.fst).zip outcome.answer)).map Answer.ofBuckets? ∧
      SameBuckets outcome.set thinned.set ∧ thinned.events = outcome.events ∧
      TurnsDecide outcome other := by
  have single : ∀ operation ∈ marked.map Prod.snd, operation.2.explores = false := by
    intro operation mem
    obtain ⟨entry, mem_marked, rfl⟩ := List.mem_map.1 mem
    exact returns entry mem_marked
  obtain ⟨outcome, ran⟩ := exists_run reserve bound (ofCount count) single
  obtain ⟨other, ran'⟩ := exists_run reserve' bound' (ofCount count') returns'
  obtain ⟨thinned, ran_thinned, answers_eq, events_eq, twins⟩ :=
    (Twins.refl (coherent_ofCount valid)).run returns nothing ran
  exact ⟨outcome, thinned, other, ran, ran_thinned, ran', answers_eq, twins.sameBuckets, events_eq,
    turnsDecide_of_run valid valid' single returns' ran ran'⟩

/-- Comparators that no order allows judge numbers, and half of the
operations are left out.  Words under other keys take the same turns. -/
theorem exists_run_kept_lawless :
    let below : Comparator Nat := fun _ _ => .lt
    let parity : Comparator Nat := fun a b => if a % 2 = b % 2 then .eq else .gt
    let marked : List (Bool × Comparator Nat × Operation Nat) :=
      [(true, below, .insert 7 4), (false, parity, .find 7 6), (true, parity, .insert 1031 9),
        (false, below, .pop), (true, parity, .tryInsert 7 5), (true, below, .insert 7 4),
        (false, parity, .waiting), (true, below, .peek), (true, parity, .contains 7 3),
        (true, below, .entries)]
    let words : Comparator String := fun _ _ => .gt
    let others : List (Comparator String × Operation String) :=
      [(words, .insert 1 "sun"), (words, .tryInsert 2 "moon"), (words, .peek), (words, .pop),
        (words, .insert 3 "sun"), (words, .waiting)]
    ValidBucketCount 1024 ∧ ValidBucketCount 2048 ∧
      (∀ entry ∈ marked, entry.2.2.explores = false) ∧
      (∀ operation ∈ others, operation.2.explores = false) ∧
      (∀ entry ∈ marked, entry.1 = false → entry.2.2.inserted? = none) ∧
      ∃ outcome thinned other,
        run .always 0 (ofCount 1024) (marked.map Prod.snd) = some outcome ∧
        run .always 0 (ofCount 1024) (kept marked) = some thinned ∧
        run .always 0 (ofCount 2048) others = some other ∧
        thinned.answer.map Answer.ofBuckets? =
          (kept ((marked.map Prod.fst).zip outcome.answer)).map Answer.ofBuckets? ∧
        SameBuckets outcome.set thinned.set ∧ thinned.events = outcome.events ∧
        TurnsDecide outcome other ∧ turns outcome.answer = turns other.answer ∧
        outcome.set.pending = 2 ∧ thinned.set.pending = 3 := by
  intro below parity marked words others
  have valid : ValidBucketCount 1024 := validBucketCount_minBuckets
  have valid' : ValidBucketCount 2048 := by decide
  have returns : ∀ entry ∈ marked, entry.2.2.explores = false := by
    simp [marked, Operation.explores]
  have returns' : ∀ operation ∈ others, operation.2.explores = false := by
    simp [others, Operation.explores]
  have nothing : ∀ entry ∈ marked, entry.1 = false → entry.2.2.inserted? = none := by
    simp [marked, Operation.inserted?]
  have seen : (run .always 0 (ofCount 1024) (marked.map Prod.snd)).map
      (fun outcome => (turns outcome.answer, outcome.set.pending)) =
      some ([.admission, .admission, .removal, .admission], 2) := by decide +kernel
  have seen_thinned : (run .always 0 (ofCount 1024) (kept marked)).map
      (fun outcome => outcome.set.pending) = some 3 := by decide +kernel
  have seen' : (run .always 0 (ofCount 2048) others).map (fun outcome => turns outcome.answer) =
      some [.admission, .admission, .removal, .admission] := by decide +kernel
  obtain ⟨outcome, thinned, other, ran, ran_thinned, ran', answers_eq, same, events_eq, alike⟩ :=
    exists_run_kept valid valid' .always .always 0 0 returns returns' nothing
  rw [ran, Option.map_some, Option.some.injEq] at seen
  rw [ran_thinned, Option.map_some, Option.some.injEq] at seen_thinned
  rw [ran', Option.map_some, Option.some.injEq] at seen'
  obtain ⟨turns_eq, pending_eq⟩ := Prod.mk.inj seen
  exact ⟨valid, valid', returns, returns', nothing, outcome, thinned, other,
    ran, ran_thinned, ran', answers_eq, same, events_eq, alike, turns_eq.trans seen'.symm,
    pending_eq, seen_thinned⟩

end Visited

end StateSearch
