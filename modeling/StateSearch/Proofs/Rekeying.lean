import StateSearch.Proofs.Growth
import StateSearch.Proofs.PlainRuns
import StateSearch.Rekeyed

/-!
# What keys, sizes and the direction of the order cannot change

Two sets may start with different numbers of buckets, order their states by
different comparators and get different keys.  As long as both comparators
call the same states equal, and equal states get one key, a caller who does
not look at the keys cannot tell the two sets apart.

Both sets answer like a plain list, `Visited.rel_run_roll`, and a plain list
looks at a comparator only to tell which states are equal, and never at a
key.  So the two lists stay the same but for the keys they carry.

There are three groups.

* Rolls and ledgers under other keys.  `Ledger.insert_rekey` and its
  siblings say that an operation on the ledger with other keys is the
  operation, with other keys.
* Searches under other keys, step by step.
* Runs.
-/

namespace StateSearch

variable {α : Type} {cmp cmp' : Comparator α} {keyOf : α → UInt64}

/-- Both comparators call the same states equal. -/
def SameEquals (cmp cmp' : Comparator α) : Prop :=
  ∀ first second, cmp first second = .eq ↔ cmp' first second = .eq

/-! ## Rolls and ledgers under other keys -/

/-- The same states under other keys. -/
def Roll.rekey (keyOf : α → UInt64) (roll : Roll α) : Roll α where
  admitted := roll.admitted.map (rekeyed keyOf)

theorem Roll.find?_rekey (same : SameEquals cmp cmp') (keyOf : α → UInt64) (roll : Roll α)
    (candidate : α) : (roll.rekey keyOf).find? cmp' candidate = roll.find? cmp candidate := by
  have tests : ∀ entry : UInt64 × α,
      (cmp' entry.2 candidate == .eq) = (cmp entry.2 candidate == .eq) := by
    intro entry
    rw [Bool.eq_iff_iff, beq_iff_eq, beq_iff_eq]
    exact (same entry.2 candidate).symm
  simp only [find?, rekey, List.findIdx?_map, Function.comp_def, rekeyed, tests]

theorem Roll.insert_rekey (same : SameEquals cmp cmp') (keyOf : α → UInt64) (roll : Roll α)
    (key : UInt64) (state : α) :
    (roll.rekey keyOf).insert cmp' (keyOf state) state =
      ((roll.insert cmp key state).1, (roll.insert cmp key state).2.rekey keyOf) := by
  unfold insert
  rw [find?_rekey same]
  cases roll.find? cmp state with
  | some id => rfl
  | none => simp [rekey, rekeyed]

namespace Ledger

/-- The same account under other keys. -/
def rekey (keyOf : α → UInt64) (ledger : Ledger Roll α) : Ledger Roll α where
  catalogue := ledger.catalogue.rekey keyOf
  stack := ledger.stack

theorem insert_rekey (same : SameEquals cmp cmp') (keyOf : α → UInt64) (ledger : Ledger Roll α)
    (key : UInt64) (state : α) :
    (ledger.rekey keyOf).insert cmp' (keyOf state) state =
      ((ledger.insert cmp key state).1, (ledger.insert cmp key state).2.rekey keyOf) := by
  have inserted := ledger.catalogue.insert_rekey same keyOf key state
  simp only [Ledger.insert, Catalogue.insert, rekey] at inserted ⊢
  rw [inserted]
  cases (ledger.catalogue.insert cmp key state).1 <;> rfl

theorem pop_rekey (keyOf : α → UInt64) (ledger : Ledger Roll α) :
    (ledger.rekey keyOf).pop = (ledger.pop.1, ledger.pop.2.rekey keyOf) := by
  rcases ledger with ⟨catalogue, stack⟩
  cases stack <;> rfl

theorem get?_rekey (keyOf : α → UInt64) (ledger : Ledger Roll α) (id : Id) :
    (ledger.rekey keyOf).get? id = (ledger.get? id).map (Entry.rekey keyOf) := by
  simp only [get?, rekey, Catalogue.admitted, Roll.rekey, List.getElem?_map, Option.map_map]
  rfl

theorem entries_rekey (keyOf : α → UInt64) (ledger : Ledger Roll α) :
    (ledger.rekey keyOf).entries = ledger.entries.map (Entry.rekey keyOf) := by
  simp only [entries, rekey, Catalogue.admitted, Roll.rekey, List.zipIdx_map, List.map_map]
  rfl

theorem waiting_rekey (keyOf : α → UInt64) (ledger : Ledger Roll α) :
    (ledger.rekey keyOf).waiting = ledger.waiting.map (Entry.rekey keyOf) := by
  have looks : (ledger.rekey keyOf).get? = fun id => (ledger.get? id).map (Entry.rekey keyOf) :=
    funext (ledger.get?_rekey keyOf)
  rw [waiting, looks, waiting, List.map_filterMap]
  rfl

/-! ## Searches under other keys -/

namespace Search

/-- The same search under other keys. -/
def rekey (keyOf : α → UInt64) (search : Search Roll α) : Search Roll α :=
  { search with ledger := search.ledger.rekey keyOf }

theorem offer_rekey (same : SameEquals cmp cmp') (keyOf : α → UInt64) (search : Search Roll α)
    (successor : UInt64 × α) :
    (search.rekey keyOf).offer cmp' (rekeyed keyOf successor) =
      (search.offer cmp successor).rekey keyOf := by
  simp only [offer, rekey, rekeyed, insert_rekey same keyOf search.ledger successor.1 successor.2]

theorem foldl_offer_rekey (same : SameEquals cmp cmp') (keyOf : α → UInt64)
    (search : Search Roll α) (successors : List (UInt64 × α)) :
    (successors.map (rekeyed keyOf)).foldl (offer cmp') (search.rekey keyOf) =
      (successors.foldl (offer cmp) search).rekey keyOf := by
  induction successors generalizing search with
  | nil => rfl
  | cons successor successors ih =>
    rw [List.map_cons, List.foldl_cons, List.foldl_cons, offer_rekey same, ih]

theorem step_rekey (same : SameEquals cmp cmp') (keyOf : α → UInt64) (expand : Expander α)
    (search : Search Roll α) :
    (search.rekey keyOf).step cmp' (expand.rekey keyOf) =
      (search.step cmp expand).rekey keyOf := by
  have popped : (search.rekey keyOf).ledger.pop =
      (search.ledger.pop.1, search.ledger.pop.2.rekey keyOf) :=
    search.ledger.pop_rekey keyOf
  simp only [step]
  rw [popped]
  rcases search.ledger.pop with ⟨top, ledger⟩
  cases top with
  | none => rfl
  | some id =>
    simp only [get?_rekey]
    cases ledger.get? id with
    | none => rfl
    | some entry =>
      simp only [Option.map_some, Entry.rekey, Expander.toList_rekey]
      exact foldl_offer_rekey same keyOf
        { ledger
          tally := { search.tally with expanded := search.tally.expanded + 1 }
          visits := search.visits ++ [{ id, state := entry.state, carried := 0 }] } _

theorem runFor_rekey (same : SameEquals cmp cmp') (keyOf : α → UInt64) (expand : Expander α)
    (bound : Nat) (search : Search Roll α) :
    runFor cmp' (expand.rekey keyOf) bound (search.rekey keyOf) =
      (runFor cmp expand bound search).map (rekey keyOf) := by
  induction bound generalizing search with
  | zero =>
    simp only [runFor]
    show (if search.ledger.stack.isEmpty then _ else _) = _
    split <;> rfl
  | succ bound ih =>
    simp only [runFor, step_rekey same, ih]
    show (if search.ledger.stack.isEmpty then _ else _) = _
    split <;> rfl

end Search

/-! ## Runs -/

/-- An operation with other keys has the same answer but for the keys. -/
theorem perform_rekey (same : SameEquals cmp cmp') (keyOf : α → UInt64) (bound : Nat)
    (ledger : Ledger Roll α) (operation : Operation α) :
    (ledger.rekey keyOf).perform bound cmp' (operation.rekey keyOf) =
      (ledger.perform bound cmp operation).map fun (answer, after) =>
        (answer.rekey keyOf, after.rekey keyOf) := by
  cases operation with
  | insert key state | tryInsert key state =>
    simp only [perform, Operation.rekey, insert_rekey same keyOf ledger key state]
    rfl
  | find key state | contains key state =>
    have found := ledger.catalogue.find?_rekey same keyOf state
    simp only [perform, Operation.rekey, Catalogue.find?, rekey, found]
    rfl
  | pop =>
    simp only [perform, Operation.rekey, pop_rekey]
    rfl
  | peek => rfl
  | entries =>
    simp only [perform, Operation.rekey, entries_rekey]
    rfl
  | waiting =>
    simp only [perform, Operation.rekey, waiting_rekey]
    rfl
  | explore expand =>
    have ran := Search.runFor_rekey same keyOf expand bound { ledger }
    simp only [perform, Operation.rekey, explore?, Option.map_map]
    show Option.map _ (Search.runFor cmp' (expand.rekey keyOf) bound
      (Search.rekey keyOf { ledger })) = _
    rw [ran, Option.map_map]
    rfl

/-- A run with other keys has the same answers but for the keys. -/
theorem run_rekey (same : SameEquals cmp cmp') (keyOf : α → UInt64) (bound : Nat)
    (ledger : Ledger Roll α) (operations : List (Operation α)) :
    (ledger.rekey keyOf).run bound (operations.map fun operation =>
        (cmp', operation.rekey keyOf)) =
      (ledger.run bound (operations.map (cmp, ·))).map fun (answers, after) =>
        (answers.map (Answer.rekey keyOf), after.rekey keyOf) := by
  induction operations generalizing ledger with
  | nil => rfl
  | cons operation operations ih =>
    simp only [List.map_cons, run, perform_rekey same keyOf bound ledger operation]
    cases ledger.perform bound cmp operation with
    | none => rfl
    | some first =>
      simp only [Option.map_some, Option.bind_some, ih, Option.map_map]
      rfl

end Ledger

namespace Visited

variable {keyOf' : α → UInt64} {set set' : Visited α}

/-- A caller who does not look at keys sees the same in both sets. -/
structure SeenAlike (set set' : Visited α) : Prop extends WaitAlike set set' where
  size_eq : set'.size = set.size
  state?_eq : set'.state? = set.state?

/-- Sets in balance with ledgers that differ in their keys look alike. -/
theorem seenAlike_of_balances {used used' : UInt64 × α → Prop} {ledger : Ledger Roll α}
    (balances : ledger.Balances (fun set roll => set.Enrolled cmp used roll) set)
    (balances' : (ledger.rekey keyOf).Balances (fun set roll => set.Enrolled cmp' used' roll) set') :
    set.SeenAlike set' := by
  have admitted_eq : set.admitted = ledger.catalogue.admitted :=
    congrArg Roll.admitted balances.catalogue.roll_eq
  have admitted_eq' : set'.admitted = ledger.catalogue.admitted.map (rekeyed keyOf) :=
    congrArg Roll.admitted balances'.catalogue.roll_eq
  have size_eq : set'.size = set.size := by
    rw [← length_admitted, ← length_admitted, admitted_eq, admitted_eq', List.length_map]
  have stack_eq : set'.stack = set.stack := balances'.stack_eq.symm.trans balances.stack_eq
  have waits := balances.coherent.waitAlike balances'.coherent size_eq stack_eq
  refine ⟨waits, size_eq, ?_⟩
  funext id
  rw [state?_eq, state?_eq, admitted_eq, admitted_eq', List.getElem?_map, Option.map_map]
  rfl

theorem permitted_rekey (cmp : Comparator α) (keyOf : α → UInt64) (operation : Operation α) :
    (operation.rekey keyOf).Permitted
      (fun other key state => other = cmp ∧ key = keyOf state) cmp := by
  cases operation with
  | insert | tryInsert | find | contains => exact ⟨rfl, rfl⟩
  | pop | peek | entries | waiting => trivial
  | explore expand =>
    intro _ _ state _ successor mem
    rw [Expander.toList_rekey] at mem
    obtain ⟨_, _, rfl⟩ := List.mem_map.1 mem
    exact ⟨rfl, rfl⟩

/-- A run whose keys are computed from the states answers like two plain
lists. -/
theorem rel_run_rekey [Std.TransCmp cmp]
    (agree : ∀ first second, cmp first second = .eq → keyOf first = keyOf second) {count : Nat}
    (valid : ValidBucketCount count) {bound : Nat} {operations : List (Operation α)}
    (fits : (ofCount count).FitsThroughout .always bound
      (operations.map fun operation => (cmp, operation.rekey keyOf))) :
    Option.Rel (Ledger.Agrees fun set (roll : Roll α) =>
        set.Enrolled cmp (fun entry => entry.1 = keyOf entry.2) roll)
      (Ledger.run bound { catalogue := {} }
        (operations.map fun operation => (cmp, operation.rekey keyOf)))
      (run .always bound (ofCount count)
        (operations.map fun operation => (cmp, operation.rekey keyOf))) := by
  have agree' : KeysAgree cmp fun entry => entry.1 = keyOf entry.2 := by
    intro first second keyed keyed' eq
    rw [keyed, keyed', agree _ _ eq]
  have permitted : ∀ operation ∈ operations.map (Operation.rekey keyOf), operation.Permitted
      (fun other key state => other = cmp ∧ key = keyOf state) cmp := by
    intro _ mem
    obtain ⟨operation, _, rfl⟩ := List.mem_map.1 mem
    exact permitted_rekey cmp keyOf operation
  have fits' : (ofCount count).FitsThroughout .always bound
      ((operations.map (Operation.rekey keyOf)).map (cmp, ·)) := by
    simpa only [List.map_map, Function.comp_def] using fits
  simpa only [List.map_map, Function.comp_def] using rel_run_roll agree' valid permitted fits'

/-- Two results that correspond to one result, and to that result changed,
correspond to each other. -/
private theorem rel_of_rel_map {β β' γ γ' : Type} {r : β → γ → Prop} {r' : β' → γ' → Prop}
    {s : γ → γ' → Prop} {f : β → β'} {result : Option β} {first : Option γ} {second : Option γ'}
    (rel : Option.Rel r result first) (rel' : Option.Rel r' (result.map f) second)
    (joins : ∀ a b c, first = some b → second = some c → r a b → r' (f a) c → s b c) :
    Option.Rel s first second := by
  cases rel with
  | none =>
    cases rel'
    exact .none
  | some rel =>
    cases rel' with
    | some rel' => exact .some (joins _ _ _ rfl rfl rel rel')

/-- A run under one total preorder keeps to the schedule of its first number
of buckets. -/
theorem onSchedule_of_run [Std.TransCmp cmp] {count : Nat} (valid : ValidBucketCount count)
    {reserve : Reserve} {bound : Nat} {operations : List (Operation α)}
    {outcome : Outcome α (List (Answer α))}
    (ran : run reserve bound (ofCount count)
      (operations.map fun operation => (cmp, operation.rekey keyOf)) = some outcome) :
    OnSchedule count outcome.set := by
  have runs : RunsTo (· = cmp) reserve bound (ofCount count) outcome.set := by
    refine ⟨_, outcome, fun _ mem => ?_, ran, rfl⟩
    obtain ⟨_, _, rfl⟩ := List.mem_map.1 mem
    rfl
  exact runs.onSchedule valid

/-- Two sets that differ in size, keys and comparator, but not in which states
are equal, answer every sequence of operations alike, but for the keys that
they show.  One ends every exploration exactly when the other does.  If they
start with as many buckets, they also double alike.  Since this holds of
every sequence, it holds of a longer one at every point. -/
theorem rel_run_of_sameEquals [Std.TransCmp cmp] [Std.TransCmp cmp'] (same : SameEquals cmp cmp')
    (agree : ∀ first second, cmp first second = .eq → keyOf first = keyOf second)
    (agree' : ∀ first second, cmp' first second = .eq → keyOf' first = keyOf' second)
    {count count' : Nat} (valid : ValidBucketCount count) (valid' : ValidBucketCount count')
    {bound : Nat} {operations : List (Operation α)}
    (fits : (ofCount count).FitsThroughout .always bound
      (operations.map fun operation => (cmp, operation.rekey keyOf)))
    (fits' : (ofCount count').FitsThroughout .always bound
      (operations.map fun operation => (cmp', operation.rekey keyOf'))) :
    Option.Rel (fun outcome outcome' =>
        outcome'.answer = outcome.answer.map (Answer.rekey keyOf') ∧
        outcome.set.SeenAlike outcome'.set ∧
        (count' = count → outcome'.set.bucketCount = outcome.set.bucketCount ∧
          outcome'.set.doublings = outcome.set.doublings))
      (run .always bound (ofCount count)
        (operations.map fun operation => (cmp, operation.rekey keyOf)))
      (run .always bound (ofCount count')
        (operations.map fun operation => (cmp', operation.rekey keyOf'))) := by
  have related := rel_run_rekey agree valid fits
  have related' := rel_run_rekey agree' valid' fits'
  have replaced := Ledger.run_rekey same keyOf' bound { catalogue := {} }
    (operations.map (Operation.rekey keyOf))
  simp only [List.map_map, Function.comp_def, Operation.rekey_rekey] at replaced
  have start : ({ catalogue := {} } : Ledger Roll α).rekey keyOf' = { catalogue := {} } := rfl
  rw [start] at replaced
  rw [replaced] at related'
  refine rel_of_rel_map related related' ?_
  intro result outcome outcome' ran ran' agrees agrees'
  have seen := seenAlike_of_balances agrees.2 agrees'.2
  refine ⟨agrees'.1.symm.trans (congrArg _ agrees.1), seen, ?_⟩
  rintro rfl
  have on := onSchedule_of_run valid ran
  have on' := onSchedule_of_run valid' ran'
  have doublings_eq := on.doublings_eq on' seen.size_eq
  exact ⟨by rw [on'.bucketCount_eq, on.bucketCount_eq, doublings_eq], doublings_eq⟩

/-- Numbers told apart by their tens, once in ascending and once in
descending order, with good keys and with one key for all, in tables of
different size. -/
theorem rel_run_of_sameEquals_tens :
    let tens : Comparator Nat := Comparator.natural.on (· / 10)
    let downward : Comparator Nat := fun a b => tens b a
    let keyOf : Nat → UInt64 := fun n => (n / 10).toUInt64
    let keyOf' : Nat → UInt64 := fun _ => 7
    let operations : List (Operation Nat) := [.insert 0 50, .tryInsert 0 34, .insert 0 58,
      .find 0 30, .pop, .explore (.ofSuccessors fun n => [(0, n / 2), (0, n)]), .entries]
    Std.TransCmp tens ∧ Std.TransCmp downward ∧ SameEquals tens downward ∧
      (∀ first second, tens first second = .eq → keyOf first = keyOf second) ∧
      (∀ first second, downward first second = .eq → keyOf' first = keyOf' second) ∧
      ValidBucketCount 1024 ∧ ValidBucketCount 2048 ∧
      (ofCount 1024).FitsThroughout .always 9
        (operations.map fun operation => (tens, operation.rekey keyOf)) ∧
      (ofCount 2048).FitsThroughout .always 9
        (operations.map fun operation => (downward, operation.rekey keyOf')) ∧
      ∃ outcome outcome' : Outcome Nat (List (Answer Nat)),
        run .always 9 (ofCount 1024)
          (operations.map fun operation => (tens, operation.rekey keyOf)) = some outcome ∧
        run .always 9 (ofCount 2048)
          (operations.map fun operation => (downward, operation.rekey keyOf')) = some outcome' ∧
        outcome'.answer = outcome.answer.map (Answer.rekey keyOf') ∧
        outcome.set.SeenAlike outcome'.set := by
  intro tens downward keyOf keyOf' operations
  have lawful : Std.TransCmp tens :=
    inferInstanceAs (Std.TransCmp (compareOn (fun n : Nat => n / 10)))
  have lawful' : Std.TransCmp downward := inferInstanceAs (Std.TransCmp fun a b => tens b a)
  have same : SameEquals tens downward := fun _ _ => Std.OrientedCmp.eq_comm
  have agree : ∀ first second, tens first second = .eq → keyOf first = keyOf second :=
    fun _ _ eq => congrArg Nat.toUInt64 (Nat.compare_eq_eq.1 eq)
  have ended : (run .always 9 (ofCount 1024)
      (operations.map fun operation => (tens, operation.rekey keyOf))).map
      (fun outcome => outcome.set.bucketCount) = some 1024 := by decide +kernel
  have ended' : (run .always 9 (ofCount 2048)
      (operations.map fun operation => (downward, operation.rekey keyOf'))).map
      (fun outcome => outcome.set.bucketCount) = some 2048 := by decide +kernel
  obtain ⟨outcome, ran, count_eq⟩ := Option.map_eq_some_iff.1 ended
  obtain ⟨outcome', ran', count_eq'⟩ := Option.map_eq_some_iff.1 ended'
  have fits := fitsThroughout_of_run ran (by rw [count_eq]; decide)
  have fits' := fitsThroughout_of_run ran' (by rw [count_eq']; decide)
  have valid : ValidBucketCount 2048 := ⟨by decide, 11, rfl⟩
  have related := rel_run_of_sameEquals same agree (fun _ _ _ => rfl) validBucketCount_minBuckets
    valid fits fits'
  simp only [minBuckets] at related
  rw [ran, ran', Option.rel_some_some] at related
  exact ⟨lawful, lawful', same, agree, fun _ _ _ => rfl, validBucketCount_minBuckets, valid, fits,
    fits', outcome, outcome', ran, ran', related.1, related.2.1⟩

end Visited

end StateSearch
