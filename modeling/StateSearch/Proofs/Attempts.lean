import StateSearch.Proofs.Schedule
import StateSearch.Proofs.Separation

/-!
# Attempts in place of admissions

An attempt to admit a state looks it up, makes sure of room, and then hands
the state to the admission, which looks it up again.  While room is granted
the attempt comes to the same as the admission, whatever the comparators do,
and also where the buckets double and the candidate turns out to be a
duplicate after all.  So in a run one may stand for the other anywhere.

There are three groups.

* Operations and answers with the two exchanged.
* One operation.  Its answer is the other one in its wrapping, and all else is
  the same.
* Runs.  `GrantedThroughout` says that room is granted wherever a doubling is
  due.
-/

namespace StateSearch

variable {α : Type}

/-! ## Operations and answers -/

/-- An attempt to admit instead of an admission, and the other way round. -/
def Operation.exchange : Operation α → Operation α
  | .insert key state => .tryInsert key state
  | .tryInsert key state => .insert key state
  | operation => operation

/-- The answer of an attempt that succeeds instead of that of an admission,
and the other way round. -/
def Answer.exchange : Answer α → Answer α
  | .verdict given => .attempt (.ok given)
  | .attempt (.ok given) => .verdict given
  | answer => answer

/-- An operation, exchanged if it is marked. -/
def Operation.exchangeIf (mark : Bool) (operation : Operation α) : Operation α :=
  if mark then operation.exchange else operation

/-- The answer to an operation that was exchanged if it is marked. -/
def Answer.exchangeIf (mark : Bool) (answer : Answer α) : Answer α :=
  if mark then answer.exchange else answer

namespace Visited

/-- The operations of a run, with the marked ones exchanged. -/
def exchangeMarked (marked : List (Bool × Comparator α × Operation α)) :
    List (Comparator α × Operation α) :=
  marked.map fun (mark, cmp, operation) => (cmp, operation.exchangeIf mark)

variable {set : Visited α} {reserve : Reserve} {bound : Nat}
  {marked : List (Bool × Comparator α × Operation α)}

/-! ## One operation -/

/-- Where one more state would fill three quarters of the buckets, there is
room for twice as many. -/
def Granted (reserve : Reserve) (set : Visited α) : Prop :=
  set.isFull = true → reserveDouble reserve set.bucketCount = .ok ()

theorem perform_exchange (granted : set.Granted reserve) (bound : Nat) (cmp : Comparator α)
    (operation : Operation α) :
    set.perform reserve bound cmp operation.exchange =
      (set.perform reserve bound cmp operation).map (Outcome.map Answer.exchange) := by
  cases operation with
  | insert key state | tryInsert key state =>
    simp only [Operation.exchange, perform, tryInsert_of_granted granted, Option.map_some]
    rfl
  | explore expand =>
    simp only [Operation.exchange, perform, Option.map_map]
    rfl
  | find | contains | pop | peek | entries | waiting => rfl

theorem perform_exchangeIf (granted : set.Granted reserve) (bound : Nat) (cmp : Comparator α)
    (operation : Operation α) (mark : Bool) :
    set.perform reserve bound cmp (operation.exchangeIf mark) =
      (set.perform reserve bound cmp operation).map (Outcome.map (Answer.exchangeIf mark)) := by
  cases mark with
  | true => exact perform_exchange granted bound cmp operation
  | false =>
    show set.perform reserve bound cmp operation = _
    cases set.perform reserve bound cmp operation <;> rfl

/-- An attempt is refused for want of room only. -/
theorem reserveDouble_of_refusal? {cmp : Comparator α} {key : UInt64} {state : α}
    {failure : Failure} (refused : set.refusal? reserve cmp key state = some failure) :
    reserveDouble reserve set.bucketCount = .error failure := by
  unfold refusal? at refused
  split at refused
  · cases room : reserveDouble reserve set.bucketCount with
    | error other =>
      rw [room] at refused
      rw [Option.some.inj refused]
    | ok =>
      rw [room] at refused
      cases refused
  · cases refused

/-- While the buckets fit into an array no attempt fails because they are too
many. -/
theorem tryInsert_ne_tooManyBuckets (fits : set.bucketCount ≤ largestArray) (reserve : Reserve)
    (cmp : Comparator α) (key : UInt64) (state : α) (count : Nat) :
    (set.tryInsert reserve cmp key state).answer ≠ .error (.tooManyBuckets count) := by
  intro failed
  rw [tryInsert_eq] at failed
  cases refused : set.refusal? reserve cmp key state with
  | none =>
    rw [refused] at failed
    cases failed
  | some failure =>
    rw [refused] at failed
    have cause := reserveDouble_of_refusal? refused
    rw [Except.error.inj failed, reserveDouble_of_fits fits] at cause
    split at cause <;> cases cause

/-! ## Runs -/

/-- On the way of a run room is granted wherever a doubling is due. -/
def GrantedThroughout (reserve : Reserve) (bound : Nat) (set : Visited α)
    (operations : List (Comparator α × Operation α)) : Prop :=
  Throughout (Granted reserve) reserve bound set operations

/-- Where buckets fit into arrays and room never runs out, it is granted. -/
theorem FitsThroughout.grantedThroughout {operations : List (Comparator α × Operation α)}
    (fits : set.FitsThroughout .always bound operations) :
    GrantedThroughout .always bound set operations :=
  fun before outcome front ran _ => reserveDouble_of_fits (fits before outcome front ran) .always

/-- A run goes on as before where attempts and admissions are exchanged. -/
theorem run_exchange (granted : GrantedThroughout reserve bound set (marked.map Prod.snd)) :
    run reserve bound set (exchangeMarked marked) =
      (run reserve bound set (marked.map Prod.snd)).map
        (Outcome.map (List.zipWith Answer.exchangeIf (marked.map Prod.fst))) := by
  induction marked generalizing set with
  | nil => rfl
  | cons entry marked ih =>
    rcases entry with ⟨mark, cmp, operation⟩
    have head : exchangeMarked ((mark, cmp, operation) :: marked) =
        (cmp, operation.exchangeIf mark) :: exchangeMarked marked := rfl
    simp only [head, List.map_cons, run, perform_exchangeIf granted.here]
    cases performed : set.perform reserve bound cmp operation with
    | none => rfl
    | some first =>
      have later := ih (granted.rest performed)
      simp only [Option.map_some, Option.bind_some, Outcome.map, later, Option.map_map]
      rfl

/-- Where room is granted no attempt fails. -/
theorem answer_ne_failure_of_perform (granted : set.Granted reserve) {cmp : Comparator α}
    {operation : Operation α} {first : Outcome α (Answer α)}
    (performed : set.perform reserve bound cmp operation = some first) (failure : Failure) :
    first.answer ≠ .attempt (.error failure) := by
  intro failed
  cases operation with
  | tryInsert key state =>
    obtain rfl := Option.some.inj performed
    rw [tryInsert_of_granted granted] at failed
    cases failed
  | explore expand =>
    simp only [perform, Option.map_eq_some_iff] at performed
    obtain ⟨outcome, _, rfl⟩ := performed
    cases failed
  | insert | find | contains | pop | peek | entries | waiting =>
    obtain rfl := Option.some.inj performed
    cases failed

theorem failure_not_mem_of_run {operations : List (Comparator α × Operation α)}
    {outcome : Outcome α (List (Answer α))}
    (granted : GrantedThroughout reserve bound set operations)
    (ran : run reserve bound set operations = some outcome) (failure : Failure) :
    .attempt (.error failure) ∉ outcome.answer := by
  refine run_induction (motive := fun set operations outcome =>
    GrantedThroughout reserve bound set operations →
      .attempt (.error failure) ∉ outcome.answer) ran ?_ ?_ granted
  · intro set _
    exact List.not_mem_nil
  · intro set cmp operation operations first later performed rest granted
    have here := answer_ne_failure_of_perform granted.here performed failure
    exact List.not_mem_cons_of_ne_of_not_mem here.symm (rest (granted.rest performed))

/-- In a run under any comparators, in which room is granted wherever a
doubling is due, any admissions may become attempts and any attempts
admissions.  After every operation the set is the same and the same events
were reported, and an attempt succeeds with the answer of the admission.
While the buckets fit into an array, no attempt fails because they are too
many, be there room or not. -/
theorem run_exchangeMarked
    (granted : GrantedThroughout reserve bound set (marked.map Prod.snd)) :
    (∀ before, before <+: marked →
      run reserve bound set (exchangeMarked before) =
          (run reserve bound set (before.map Prod.snd)).map (fun outcome =>
            { answer := List.zipWith Answer.exchangeIf (before.map Prod.fst) outcome.answer
              set := outcome.set
              events := outcome.events }) ∧
        ∀ outcome, run reserve bound set (before.map Prod.snd) = some outcome →
          ∀ failure, .attempt (.error failure) ∉ outcome.answer) ∧
      ∀ other : Visited α, other.bucketCount ≤ largestArray →
        ∀ reserve cmp key state count,
          (other.tryInsert reserve cmp key state).answer ≠ .error (.tooManyBuckets count) := by
  refine ⟨fun before front => ?_, fun other fits => tryInsert_ne_tooManyBuckets fits⟩
  have granted_before : GrantedThroughout reserve bound set (before.map Prod.snd) :=
    fun first outcome first_le => granted first outcome (first_le.trans (front.map Prod.snd))
  exact ⟨run_exchange granted_before, fun outcome => failure_not_mem_of_run granted_before⟩

/-- One more state would fill three quarters of the buckets.  An attempt to
admit what is there becomes an admission.  The admission after it doubles the
buckets for a duplicate, and so does the attempt in its place. -/
theorem run_exchangeMarked_crowd :
    let marked : List (Bool × Comparator Nat × Operation Nat) :=
      [(true, .natural, .tryInsert 0 1), (true, stumble, .insert 0 0)]
    GrantedThroughout .always 0 (crowd 1024) (marked.map Prod.snd) ∧
      (crowd 1024).bucketCount ≤ largestArray ∧
      ∃ one late outcome,
        run .always 0 (crowd 1024) (marked.map Prod.snd) = some outcome ∧
        outcome.answer = [.attempt (.ok (.duplicate one 1)), .verdict (.duplicate late 0)] ∧
        outcome.set.doublings = 1 ∧
        run .always 0 (crowd 1024) (exchangeMarked marked) =
          some { answer := [.verdict (.duplicate one 1), .attempt (.ok (.duplicate late 0))]
                 set := outcome.set
                 events := outcome.events } := by
  intro marked
  have valid : ValidBucketCount 1024 := validBucketCount_minBuckets
  have count_eq : (crowd 1024).bucketCount = 1024 := bucketCount_crowd valid
  obtain ⟨one, again⟩ := exists_find?_crowd valid
  have first := tryInsert_of_find?_eq_some again .always
  obtain ⟨late, second⟩ := exists_insert_crowd valid (by decide)
  have ran : run .always 0 (crowd 1024) (marked.map Prod.snd) =
      some { answer := [.attempt (.ok (.duplicate one 1)), .verdict (.duplicate late 0)]
             set := (crowd 1024).double
             events := [.doubled (crowd 1024).bucketCount (crowd 1024).size] } := by
    simp only [marked, List.map_cons, List.map_nil, run, perform, first, second, Outcome.map,
      Option.bind_some, Option.map_some, List.nil_append, List.append_nil]
  have fits : (crowd 1024).FitsThroughout .always 0 (marked.map Prod.snd) := by
    refine fitsThroughout_of_run ran ?_
    rw [bucketCount_double, count_eq]
    decide
  have granted := fits.grantedThroughout
  have exchanged := ((run_exchangeMarked granted).1 marked (List.prefix_refl _)).1
  have doubled := doublings_insert_crowd valid (by decide)
  rw [second] at doubled
  refine ⟨granted, ?_, one, late, _, ran, rfl, doubled, ?_⟩
  · rw [count_eq]
    decide
  · rw [exchanged, ran]
    rfl

end Visited

end StateSearch
