import Mathlib.Algebra.Order.Ring.Nat
import StateSearch.Proofs.Finding

/-!
# When the buckets double

Under one total preorder the number of buckets follows from the number of
admitted states alone: the buckets doubled as often as it takes to stay below
three quarters, and no more often.  Keys, duplicates, removals and lookups
have no part in it.

`OnSchedule` states this for a set that started with a given number of
buckets.  `Leads.onSchedule` carries it along every run, and
`OnSchedule.doublings_eq` compares two sets of one size.
-/

namespace StateSearch

variable {α : Type}

namespace Visited

/-- The buckets have doubled just as often as the states need. -/
structure OnSchedule (initial : Nat) (set : Visited α) : Prop where
  bucketCount_eq : set.bucketCount = initial * 2 ^ set.doublings
  loose : 4 * set.size < 3 * set.bucketCount
  /-- With fewer doublings the states would fill three quarters. -/
  needed : ∀ n < set.doublings, 3 * (initial * 2 ^ n) ≤ 4 * set.size

variable {initial : Nat} {set set' : Visited α} {cmp : Comparator α}

theorem onSchedule_ofCount {count : Nat} (valid : ValidBucketCount count) :
    OnSchedule count (ofCount count : Visited α) where
  bucketCount_eq := by
    have count_eq : (ofCount count : Visited α).bucketCount = count := Buckets.count_ofCount count
    rw [count_eq]
    exact (Nat.mul_one count).symm
  loose := by
    have count_eq : (ofCount count : Visited α).bucketCount = count := Buckets.count_ofCount count
    have pos := valid.pos
    rw [count_eq]
    show 4 * 0 < 3 * count
    omega
  needed n lt := absurd lt (Nat.not_lt_zero n)

/-- One more state where there is room for it. -/
theorem OnSchedule.place (on : OnSchedule initial set) (coherent : set.Coherent)
    (loose : set.isFull = false) (key : UInt64) (state : α) (after : Option Id) :
    OnSchedule initial (set.place key state after) := by
  have room : ¬ 3 * set.bucketCount ≤ 4 * (set.size + 1) := by
    rw [← coherent.isFull_iff, loose]
    exact Bool.false_ne_true
  refine ⟨?_, ?_, fun n lt => ?_⟩
  · rw [bucketCount_place, doublings_place]
    exact on.bucketCount_eq
  · rw [bucketCount_place, size_place]
    omega
  · rw [doublings_place] at lt
    have needed := on.needed n lt
    rw [size_place]
    omega

/-- One more state that calls for a doubling. -/
theorem OnSchedule.grow (on : OnSchedule initial set) (coherent : set.Coherent)
    (full : set.isFull = true) (key : UInt64) (state : α) (after : Option Id) :
    OnSchedule initial (set.double.place key state after) := by
  rw [coherent.isFull_iff] at full
  have loose := on.loose
  have least := coherent.valid.1
  unfold minBuckets at least
  refine ⟨?_, ?_, fun n lt => ?_⟩
  · rw [bucketCount_place, doublings_place, bucketCount_double, doublings_double, pow_succ,
      on.bucketCount_eq, Nat.mul_assoc]
  · rw [bucketCount_place, size_place, bucketCount_double, size_double]
    omega
  · rw [doublings_place, doublings_double] at lt
    rw [size_place, size_double]
    rcases Nat.lt_succ_iff_lt_or_eq.1 lt with old | rfl
    · have needed := on.needed n old
      omega
    · rw [← on.bucketCount_eq]
      exact full

/-- Handing out changes neither the buckets nor the number of states. -/
theorem OnSchedule.pop (on : OnSchedule initial set) : OnSchedule initial set.pop.2 := by
  refine ⟨on.bucketCount_eq, ?_, ?_⟩ <;> rw [size_pop]
  · exact on.loose
  · exact on.needed

/-- Under one total preorder every run keeps to the schedule. -/
theorem Leads.onSchedule [Std.TransCmp cmp] (leads : Leads (· = cmp) set set')
    (coherent : set.Coherent) (ascending : set.listTable.Ascending cmp)
    (on : OnSchedule initial set) : OnSchedule initial set' := by
  induction leads with
  | refl => exact on
  | insert before permitted key state ih =>
    subst permitted
    have coherent_mid := before.coherent coherent
    refine coherent_mid.insert_cases_lawful (before.ascending coherent ascending)
      (motive := fun outcome => OnSchedule initial outcome.set) ?_ ?_ ?_
    · intro id _
      exact ih
    · intro after _ loose
      exact ih.place coherent_mid loose key state after
    · intro after _ full
      exact ih.grow coherent_mid full key state after
  | pop _ ih => exact ih.pop

theorem RunsTo.onSchedule [Std.TransCmp cmp] {count : Nat} (valid : ValidBucketCount count)
    {reserve : Reserve} {bound : Nat} (runs : RunsTo (· = cmp) reserve bound (ofCount count) set) :
    OnSchedule count set :=
  runs.leads.onSchedule (coherent_ofCount valid) (ascending_ofCount cmp count)
    (onSchedule_ofCount valid)

/-- Sets of one size that started with as many buckets have doubled as
often. -/
theorem OnSchedule.doublings_eq (on : OnSchedule initial set) (on' : OnSchedule initial set')
    (size_eq : set'.size = set.size) : set'.doublings = set.doublings := by
  have loose := on.loose
  have loose' := on'.loose
  rw [on.bucketCount_eq] at loose
  rw [on'.bucketCount_eq] at loose'
  rcases Nat.lt_trichotomy set'.doublings set.doublings with less | same | more
  · have needed := on.needed _ less
    omega
  · exact same
  · have needed := on'.needed _ more
    omega

end Visited

end StateSearch
