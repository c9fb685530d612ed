import StateSearch.Proofs.FullScan
import StateSearch.Proofs.LastInFirstOut
import StateSearch.Proofs.Schedule

/-!
# What a rejected candidate leaves behind

An admission doubles the buckets before it knows whether the candidate is
new, so a candidate that is rejected can still leave its mark.  Under a total
preorder it does not: the candidate was found at once, and the set is as it
was.  Under other comparators the buckets may have doubled for nothing.  What
a caller can see of the states stays even then.

There are two groups.

* Any comparator.  `Coherent.leftByRejection` bounds the damage.
* What a caller can rely on.
-/

namespace StateSearch

variable {α : Type}

namespace Visited

variable {set : Visited α} {cmp : Comparator α} {key : UInt64} {candidate : α} {id : Id}

/-! ## Any comparator -/

/-- The second set has twice the buckets.  Each of its chains is the part of
an old one whose keys now belong there, in the old order. -/
structure SplitInTwo (set set' : Visited α) : Prop where
  bucketCount_eq : set'.bucketCount = 2 * set.bucketCount
  doublings_eq : set'.doublings = set.doublings + 1
  chain_eq : ∀ bucket, set'.chain bucket =
    (set.chain (bucket % set.bucketCount)).filter (set.store.leaves (2 * set.bucketCount) bucket)

theorem Coherent.splitInTwo_double (coherent : set.Coherent) : set.SplitInTwo set.double where
  bucketCount_eq := congrArg ListTable.count coherent.listTable_double
  doublings_eq := doublings_double set
  chain_eq bucket := by
    have split := congrFun (congrArg ListTable.bucket coherent.listTable_double) bucket
    rw [ListTable.bucket_split, leaves_listTable_eq] at split
    exact split

/-- What is left when a candidate is rejected for the state with an id.  The
states are the same and wait as before, and if the table is not the same it
has doubled once. -/
structure LeftByRejection (set : Visited α) (cmp : Comparator α) (key : UInt64) (candidate : α)
    (id : Id) (set' : Visited α) : Prop where
  find?_eq : set'.find? cmp key candidate = some id
  size_eq : set'.size = set.size
  entries_eq : set'.entries = set.entries
  waiting_eq : set'.waiting = set.waiting
  waits : set.WaitAlike set'
  /-- The buckets double only where one more state fills exactly three
  quarters of them and the first lookup found no equal state. -/
  table : set' = set ∨
    4 * (set.size + 1) = 3 * set.bucketCount ∧ set.find? cmp key candidate = none ∧
      set.SplitInTwo set'

/-- The set is the same, or it has doubled. -/
theorem set_insert_of_duplicate {rejected : α}
    (answer : (set.insert cmp key candidate).answer = .duplicate id rejected) :
    (set.insert cmp key candidate).set.find? cmp key candidate = some id ∧
      ((set.insert cmp key candidate).set = set ∨
        set.isFull = true ∧ set.find? cmp key candidate = none ∧
          (set.insert cmp key candidate).set = set.double) := by
  revert answer
  refine insert_cases (motive := fun outcome => outcome.answer = .duplicate id rejected →
    outcome.set.find? cmp key candidate = some id ∧
      (outcome.set = set ∨ set.isFull = true ∧ set.find? cmp key candidate = none ∧
        outcome.set = set.double)) ?_ ?_ ?_ ?_
  · intro other found answer
    obtain ⟨rfl, _⟩ := Verdict.duplicate.inj answer
    exact ⟨find?_eq_some_iff_lookup.2 found, .inl rfl⟩
  · intro after _ _ answer
    cases answer
  · intro after other absent full found answer
    obtain ⟨rfl, _⟩ := Verdict.duplicate.inj answer
    have missing := find?_eq_none_iff_lookup.2 ⟨after, absent⟩
    exact ⟨find?_eq_some_iff_lookup.2 found, .inr ⟨full, missing, rfl⟩⟩
  · intro after after' _ _ _ answer
    cases answer

theorem waiting_eq_of_stack {set' : Visited α} (entries_eq : set'.entries = set.entries)
    (stack_eq : set'.stack = set.stack) : set'.waiting = set.waiting := by
  have get?_eq : set'.get? = set.get? := by
    funext other
    rw [← getElem?_entries, ← getElem?_entries, entries_eq]
  show set'.stack.filterMap set'.get? = set.stack.filterMap set.get?
  rw [stack_eq, get?_eq]

theorem Coherent.leftByRejection (coherent : set.Coherent)
    (loose : 4 * set.size < 3 * set.bucketCount) {rejected : α}
    (answer : (set.insert cmp key candidate).answer = .duplicate id rejected) :
    set.LeftByRejection cmp key candidate id (set.insert cmp key candidate).set := by
  obtain ⟨found, table⟩ := set_insert_of_duplicate answer
  have waits := coherent.waitAlike_of_duplicate answer
  rcases coherent.insert_cases_seen cmp key candidate with
    ⟨_, _, admitted_eq, _⟩ | ⟨answer_eq, _, _⟩
  · have entries_eq := entries_eq_of_admitted admitted_eq
    refine ⟨found, ?_, entries_eq, waiting_eq_of_stack entries_eq waits.stack_eq, waits, ?_⟩
    · rw [← length_entries, entries_eq, length_entries]
    · refine table.imp_right ?_
      rintro ⟨full, missing, doubled⟩
      exact ⟨(coherent.isFull_iff_eq loose).1 full, missing,
        doubled ▸ coherent.splitInTwo_double⟩
  · rw [answer_eq] at answer
    cases answer

/-- An attempt that ends with a duplicate is the admission. -/
theorem tryInsert_of_duplicate {reserve : Reserve} {rejected : α}
    (answer : (set.tryInsert reserve cmp key candidate).answer = .ok (.duplicate id rejected)) :
    (set.insert cmp key candidate).answer = .duplicate id rejected ∧
      (set.tryInsert reserve cmp key candidate).set = (set.insert cmp key candidate).set := by
  rcases tryInsert_cases reserve set cmp key candidate with ⟨failure, eq⟩ | eq <;>
    rw [eq] at answer ⊢
  · cases answer
  · exact ⟨Except.ok.inj answer, rfl⟩

/-! ## What a caller can rely on -/

/-- In a set that a run under one total preorder leads to, a rejected
candidate changes nothing and reports nothing, also where one more state
would fill three quarters of the buckets.  In every set that a run leads to,
and under every comparator, it leaves the states and those that wait, and at
most doubles the buckets. -/
theorem Reachable.rejection_leaves (reachable : set.Reachable) :
    (∀ cmp, Std.TransCmp cmp → set.ReachableUnder cmp → ∀ key candidate id rejected,
      ((set.insert cmp key candidate).answer = .duplicate id rejected →
        set.insert cmp key candidate = { answer := .duplicate id candidate, set }) ∧
      ∀ reserve,
        (set.tryInsert reserve cmp key candidate).answer = .ok (.duplicate id rejected) →
          set.tryInsert reserve cmp key candidate =
            { answer := .ok (.duplicate id candidate), set }) ∧
    ∀ cmp key candidate id rejected,
      ((set.insert cmp key candidate).answer = .duplicate id rejected →
        set.LeftByRejection cmp key candidate id (set.insert cmp key candidate).set) ∧
      ∀ reserve,
        (set.tryInsert reserve cmp key candidate).answer = .ok (.duplicate id rejected) →
          set.LeftByRejection cmp key candidate id
            (set.tryInsert reserve cmp key candidate).set := by
  have coherent := reachable.coherent
  constructor
  · intro cmp lawful under key candidate id rejected
    constructor
    · intro answer
      exact insert_of_find?_eq_some
        ((coherent.insert_eq_duplicate_iff under.ascending).1 answer).1
    · intro reserve answer
      exact tryInsert_of_find?_eq_some
        ((coherent.tryInsert_eq_duplicate_iff under.ascending).1 answer).1 reserve
  · intro cmp key candidate id rejected
    constructor
    · exact coherent.leftByRejection reachable.loose
    · intro reserve answer
      obtain ⟨answer', set_eq⟩ := tryInsert_of_duplicate answer
      rw [set_eq]
      exact coherent.leftByRejection reachable.loose answer'

/-- One more state would fill three quarters of the buckets.  Then a number
that is in the set is offered again, and changes nothing, and a lookup that
stumbles doubles the buckets for a duplicate. -/
theorem rejection_leaves_crowd :
    Std.TransCmp (Comparator.natural : Comparator Nat) ∧ (crowd 1024).Reachable ∧
      (crowd 1024).ReachableUnder .natural ∧ (crowd 1024).isFull = true ∧
      (∃ id, ((crowd 1024).tryInsert .always .natural 0 1).answer = .ok (.duplicate id 1) ∧
        (crowd 1024).tryInsert .always .natural 0 1 =
          { answer := .ok (.duplicate id 1), set := crowd 1024 }) ∧
      ∃ id, ((crowd 1024).insert stumble 0 0).answer = .duplicate id 0 ∧
        (crowd 1024).LeftByRejection stumble 0 0 id ((crowd 1024).insert stumble 0 0).set ∧
        ((crowd 1024).insert stumble 0 0).set.doublings = 1 := by
  have valid : ValidBucketCount 1024 := validBucketCount_minBuckets
  have under := reachableUnder_crowd valid
  obtain ⟨one, again⟩ := exists_find?_crowd valid
  have rejected : ((crowd 1024).tryInsert .always .natural 0 1).answer = .ok (.duplicate one 1) := by
    rw [tryInsert_of_find?_eq_some again]
  obtain ⟨late, inserted⟩ := exists_insert_crowd valid (by decide)
  have rejected_late : ((crowd 1024).insert stumble 0 0).answer = .duplicate late 0 := by
    rw [inserted]
  obtain ⟨nothing, little⟩ := under.reachable.rejection_leaves
  exact ⟨inferInstance, under.reachable, under, isFull_crowd valid,
    ⟨one, rejected, (nothing Comparator.natural inferInstance under 0 1 one 1).2 .always rejected⟩,
    late, rejected_late, (little stumble 0 0 late 0).1 rejected_late,
    doublings_insert_crowd valid (by decide)⟩

end Visited

end StateSearch
