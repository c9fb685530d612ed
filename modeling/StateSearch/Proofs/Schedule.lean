import Mathlib.Order.Bounds.Basic
import StateSearch.Proofs.Growth
import StateSearch.Proofs.Paths

/-!
# The schedule of doublings

The buckets double when one more state would fill three quarters of them,
before it is known that the candidate is new.  Under a comparator that is no
total preorder the candidate can turn out to be a duplicate after all.  The
set has then doubled early, for a state that is still to come.  It has room,
so it does not double again before that state is there, and then it is on
schedule.

There are five groups.

* The schedule.  `LeastCount` is the number of buckets that a number of states
  calls for.
* Doubling early.
* Every run.  `Leads.scheduled` carries both cases along.
* A run that gets ahead, for every initial number of buckets.  The set is
  filled under a total order with numbers that share a bucket.  Then a lookup
  stops at the first of them, and does not after the doubling, which moves
  this one away.
* What a caller can rely on.
-/

namespace StateSearch

variable {α : Type}

/-! ## The schedule -/

/-- Of the numbers of buckets that doublings make of the initial one, the
least that so many states fill to less than three quarters. -/
def LeastCount (initial states count : Nat) : Prop :=
  IsLeast {count | (∃ doublings, count = initial * 2 ^ doublings) ∧ 4 * states < 3 * count} count

theorem leastCount_of_needed {initial states count doublings : Nat}
    (count_eq : count = initial * 2 ^ doublings) (loose : 4 * states < 3 * count)
    (needed : ∀ n < doublings, 3 * (initial * 2 ^ n) ≤ 4 * states) :
    LeastCount initial states count := by
  refine ⟨⟨⟨doublings, count_eq⟩, loose⟩, ?_⟩
  rintro _ ⟨⟨n, rfl⟩, enough⟩
  have le : doublings ≤ n := by
    apply Nat.le_of_not_lt
    intro lt
    have := needed n lt
    omega
  rw [count_eq]
  exact Nat.mul_le_mul_left initial (Nat.pow_le_pow_right (by decide) le)

namespace Visited

variable {initial : Nat} {set set' : Visited α}

theorem OnSchedule.leastCount (on : OnSchedule initial set) :
    LeastCount initial set.size set.bucketCount :=
  leastCount_of_needed on.bucketCount_eq on.loose on.needed

/-! ## Doubling early -/

/-- The buckets have doubled for the next state, which is not there yet. -/
structure Early (initial : Nat) (set : Visited α) : Prop where
  doubled : 0 < set.doublings
  bucketCount_eq : set.bucketCount = initial * 2 ^ set.doublings
  /-- The next state would have filled three quarters of half the buckets. -/
  due : 2 * (4 * (set.size + 1)) = 3 * set.bucketCount

/-- Half the buckets are too few for the next state. -/
theorem Early.needed (early : Early initial set) {n : Nat} (lt : n < set.doublings) :
    3 * (initial * 2 ^ n) ≤ 4 * (set.size + 1) := by
  have half : 2 * (initial * 2 ^ n) ≤ set.bucketCount := by
    rw [early.bucketCount_eq, Nat.mul_left_comm, ← pow_succ']
    exact Nat.mul_le_mul_left initial (Nat.pow_le_pow_right (by decide) lt)
  have due := early.due
  omega

theorem Early.leastCount (early : Early initial set) :
    LeastCount initial (set.size + 1) set.bucketCount := by
  refine leastCount_of_needed early.bucketCount_eq ?_ fun _ => early.needed
  have due := early.due
  omega

/-- Half the buckets would do for the states that are there. -/
theorem Early.not_leastCount (early : Early initial set) :
    ¬ LeastCount initial set.size set.bucketCount := by
  intro least
  obtain ⟨n, doublings_eq⟩ := Nat.exists_eq_add_one_of_ne_zero (Nat.ne_of_gt early.doubled)
  have halved : set.bucketCount = 2 * (initial * 2 ^ n) := by
    rw [early.bucketCount_eq, doublings_eq, pow_succ', Nat.mul_left_comm]
  have due := early.due
  have le := least.2 (show initial * 2 ^ n ∈ _ from ⟨⟨n, rfl⟩, by omega⟩)
  omega

/-- A set on schedule that doubles without an admission is early. -/
theorem OnSchedule.double (on : OnSchedule initial set) (coherent : set.Coherent)
    (full : set.isFull = true) : Early initial set.double := by
  rw [coherent.isFull_iff_eq on.loose] at full
  refine ⟨?_, ?_, ?_⟩
  · rw [doublings_double]
    exact Nat.succ_pos _
  · rw [bucketCount_double, doublings_double, pow_succ, on.bucketCount_eq, Nat.mul_assoc]
  · rw [bucketCount_double, size_double]
    omega

/-- An early set has room for the next state. -/
theorem Early.isFull_eq (early : Early initial set) (coherent : set.Coherent) :
    set.isFull = false := by
  have due := early.due
  rw [Bool.eq_false_iff, Ne, coherent.isFull_iff]
  omega

/-- With the next state an early set is on schedule. -/
theorem Early.place (early : Early initial set) (key : UInt64) (state : α) (after : Option Id) :
    OnSchedule initial (set.place key state after) := by
  refine ⟨?_, ?_, fun n lt => ?_⟩
  · rw [bucketCount_place, doublings_place]
    exact early.bucketCount_eq
  · have due := early.due
    rw [bucketCount_place, size_place]
    omega
  · rw [doublings_place] at lt
    rw [size_place]
    exact early.needed lt

theorem Early.pop (early : Early initial set) : Early initial set.pop.2 := by
  refine ⟨early.doubled, early.bucketCount_eq, ?_⟩
  rw [size_pop]
  exact early.due

/-! ## Every run -/

/-- The buckets have doubled as often as the states need, or once more for
the next state. -/
def Scheduled (initial : Nat) (set : Visited α) : Prop :=
  OnSchedule initial set ∨ Early initial set

theorem Scheduled.bucketCount_eq (scheduled : Scheduled initial set) :
    set.bucketCount = initial * 2 ^ set.doublings :=
  scheduled.elim OnSchedule.bucketCount_eq Early.bucketCount_eq

theorem Scheduled.loose (scheduled : Scheduled initial set) :
    4 * set.size < 3 * set.bucketCount := by
  rcases scheduled with on | early
  · exact on.loose
  · have due := early.due
    omega

/-- An admission under any comparator keeps to the schedule, but it can get
ahead of it by one state. -/
theorem Scheduled.insert (scheduled : Scheduled initial set) (coherent : set.Coherent)
    (cmp : Comparator α) (key : UInt64) (state : α) :
    Scheduled initial (set.insert cmp key state).set := by
  refine insert_cases (motive := fun outcome => Scheduled initial outcome.set) ?_ ?_ ?_ ?_
  · intro id _
    exact scheduled
  · intro after _ room
    rcases scheduled with on | early
    · exact .inl (on.place coherent room key state after)
    · exact .inl (early.place key state after)
  -- An early set has room, so only a set on schedule doubles.
  · intro after id _ full _
    rcases scheduled with on | early
    · exact .inr (on.double coherent full)
    · rw [early.isFull_eq coherent] at full
      cases full
  · intro after after' _ full _
    rcases scheduled with on | early
    · exact .inl (on.grow coherent full key state after')
    · rw [early.isFull_eq coherent] at full
      cases full

/-- Every run keeps to the schedule up to one state, whatever the comparators
do. -/
theorem Leads.scheduled {permits : Comparator α → Prop} (leads : Leads permits set set')
    (coherent : set.Coherent) (scheduled : Scheduled initial set) : Scheduled initial set' := by
  induction leads with
  | refl => exact scheduled
  | insert before _ key state ih => exact ih.insert (before.coherent coherent) _ key state
  | pop _ ih => exact ih.imp OnSchedule.pop Early.pop

theorem RunsTo.scheduled {permits : Comparator α → Prop} {count : Nat}
    (valid : ValidBucketCount count) {reserve : Reserve} {bound : Nat}
    (runs : RunsTo permits reserve bound (ofCount count) set) : Scheduled count set :=
  runs.leads.scheduled (coherent_ofCount valid) (.inl (onSchedule_ofCount valid))

/-- In every set that a run leads to, the buckets are less than three quarters
full. -/
theorem Reachable.loose (reachable : set.Reachable) : 4 * set.size < 3 * set.bucketCount := by
  rcases reachable with ⟨count, reserve, bound, valid, runs⟩
  exact (runs.scheduled valid).loose

/-! ## A run that gets ahead -/

/-- A key for each number.  `0` parts from all others when `count` buckets
double. -/
def apart (count n : Nat) : UInt64 :=
  if n = 0 then .ofNat count else 0

/-- A set of so many numbers that one more fills three quarters of the
buckets. -/
def crowd (count : Nat) : Visited Nat :=
  seeded .natural (apart count) count (List.range (3 * (count / 4) - 1))

/-- Finds `0` greater than every candidate, and all other numbers equal to
it. -/
def stumble : Comparator Nat :=
  fun state _ => if state = 0 then .gt else .eq

theorem toNat_apart_zero {count : Nat} (small : count < UInt64.size) :
    (apart count 0).toNat = count := by
  rw [apart, if_pos rfl, UInt64.toNat_ofNat_of_lt' small]

theorem stumble_ne_lt (candidate state : Nat) : stumble state candidate ≠ .lt := by
  unfold stumble
  split <;> exact Ordering.noConfusion

section Ahead

variable {count : Nat} (valid : ValidBucketCount count)
include valid

theorem reachableUnder_crowd : (crowd count).ReachableUnder .natural :=
  reachableUnder_seeded valid _ _ _

theorem size_crowd : (crowd count).size = 3 * (count / 4) - 1 := by
  rw [crowd, size_seeded valid _ List.nodup_range, List.length_range]

theorem onSchedule_crowd : OnSchedule count (crowd count) := by
  have leads : Leads (· = Comparator.natural) (ofCount count) (crowd count) :=
    leads_insertAll (by rfl) _ _
  exact leads.onSchedule (coherent_ofCount valid) (ascending_ofCount _ count)
    (onSchedule_ofCount valid)

theorem doublings_crowd : (crowd count).doublings = 0 := by
  have size_eq := size_crowd valid
  apply Nat.eq_zero_of_not_pos
  intro pos
  have needed := (onSchedule_crowd valid).needed 0 pos
  have least := valid.1
  unfold minBuckets at least
  omega

theorem bucketCount_crowd : (crowd count).bucketCount = count := by
  rw [(onSchedule_crowd valid).bucketCount_eq, doublings_crowd valid, pow_zero, Nat.mul_one]

theorem isFull_crowd : (crowd count).isFull = true := by
  have size_eq := size_crowd valid
  have four_dvd := valid.four_dvd
  have least := valid.1
  unfold minBuckets at least
  rw [(reachableUnder_crowd valid).reachable.coherent.isFull_iff, bucketCount_crowd valid]
  omega

/-- The entries of the crowd have their keys. -/
theorem getElem?_admitted_crowd {id n : Nat} :
    (crowd count).admitted[id]? = some (apart count n, n) ↔ (crowd count).state? id = some n := by
  rw [state?_eq, Option.map_eq_some_iff]
  constructor
  · intro admitted
    exact ⟨_, admitted, rfl⟩
  · rintro ⟨⟨key, n⟩, admitted, rfl⟩
    have keyed : key = apart count n :=
      keyedBy_iff.1 (keyedBy_seeded valid _ _ _) _ (List.mem_of_getElem? admitted)
    rw [admitted, keyed]

/-- The small numbers are in the crowd. -/
theorem exists_state?_crowd {n : Nat} (lt : n < 2) : ∃ id, (crowd count).state? id = some n := by
  have least := valid.1
  unfold minBuckets at least
  refine (holds_seeded_iff valid _).2 (List.mem_range.2 ?_)
  omega

/-- `1` is found under its key. -/
theorem exists_find?_crowd : ∃ id, (crowd count).find? .natural 0 1 = some id := by
  have under := reachableUnder_crowd valid
  have key_eq : apart count 1 = 0 := if_neg Nat.one_ne_zero
  obtain ⟨id, found⟩ := exists_state?_crowd valid Nat.one_lt_two
  have admitted := (getElem?_admitted_crowd valid).2 found
  rw [key_eq] at admitted
  exact ⟨id, under.reachable.coherent.find?_eq_some_of_admitted under.ascending admitted
    Std.ReflCmp.compare_self⟩

variable (small : count < UInt64.size)
include small

/-- All of the crowd shares a bucket. -/
theorem mem_chain_crowd {id n : Nat} (found : (crowd count).state? id = some n) :
    id ∈ (crowd count).chain 0 := by
  have coherent := (reachableUnder_crowd valid).reachable.coherent
  refine (coherent.placed 0 id).2 (ListTable.leaves_iff.2
    ⟨_, (getElem?_admitted_crowd valid).2 found, ?_⟩)
  show (apart count n).toNat % (crowd count).bucketCount = 0
  rw [bucketCount_crowd valid]
  by_cases zero : n = 0
  · rw [zero, toNat_apart_zero small, Nat.mod_self]
  · rw [apart, if_neg zero]
    exact Nat.zero_mod count

/-- `0` comes first. -/
theorem exists_chain_crowd :
    ∃ id rest, (crowd count).chain 0 = id :: rest ∧ (crowd count).state? id = some 0 := by
  obtain ⟨least, found⟩ := exists_state?_crowd valid Nat.zero_lt_two
  have mem := mem_chain_crowd valid small found
  have ascending := pairwise_before (reachableUnder_crowd valid).ascending 0
  cases chain_eq : (crowd count).chain 0 with
  | nil =>
    rw [chain_eq] at mem
    cases mem
  | cons first rest =>
    rw [chain_eq] at mem ascending
    rcases List.mem_cons.1 mem with rfl | later
    · exact ⟨least, rest, rfl, found⟩
    · obtain ⟨state, state', _, found', lt⟩ := (List.pairwise_cons.1 ascending).1 least later
      obtain rfl := Option.some.inj (found'.symm.trans found)
      exact absurd (Nat.compare_eq_lt.1 lt) (Nat.not_lt_zero state)

theorem find?_crowd : (crowd count).find? stumble 0 0 = none := by
  obtain ⟨id, rest, chain_eq, found⟩ := exists_chain_crowd valid small
  have first : (crowd count).listTable.bucket
      ((0 : UInt64).toNat % (crowd count).listTable.count) = id :: rest := by
    show (crowd count).chain (0 % (crowd count).bucketCount) = id :: rest
    rw [Nat.zero_mod, chain_eq]
  have unequal : (crowd count).listTable.equal stumble 0 id = false := by
    rw [Bool.eq_false_iff, Ne, ListTable.equal_iff]
    rintro ⟨state, found', eq⟩
    rw [state?_listTable, found, Option.some.injEq] at found'
    subst found'
    cases eq
  rw [(reachableUnder_crowd valid).reachable.coherent.find?_eq,
    ListTable.find?_eq_head? (stumble_ne_lt 0), first, List.head?_cons, Option.filter_some, unequal]
  rfl

/-- After a doubling `0` is in another bucket. -/
theorem ne_zero_of_mem_split {id n : Nat} (mem : id ∈ (crowd count).listTable.split.bucket 0)
    (found : (crowd count).state? id = some n) : n ≠ 0 := by
  rintro rfl
  obtain ⟨entry, admitted, stays⟩ := ListTable.leaves_iff.1 (List.mem_filter.1 mem).2
  have same := admitted.symm.trans ((getElem?_admitted_crowd valid).2 found)
  rw [Option.some.inj same] at stays
  change (apart count 0).toNat % (2 * (crowd count).bucketCount) = 0 at stays
  have pos := valid.pos
  rw [toNat_apart_zero small, bucketCount_crowd valid, Nat.mod_eq_of_lt (by omega)] at stays
  exact Nat.ne_of_gt pos stays

/-- After a doubling `1` is where it was. -/
theorem mem_split_crowd {id : Nat} (found : (crowd count).state? id = some 1) :
    id ∈ (crowd count).listTable.split.bucket 0 := by
  refine List.mem_filter.2 ⟨?_, ListTable.leaves_iff.2
    ⟨_, (getElem?_admitted_crowd valid).2 found, Nat.zero_mod _⟩⟩
  show id ∈ (crowd count).chain (0 % (crowd count).bucketCount)
  rw [Nat.zero_mod]
  exact mem_chain_crowd valid small found

theorem exists_find?_double_crowd : ∃ id, (crowd count).double.find? stumble 0 0 = some id := by
  have coherent := (reachableUnder_crowd valid).reachable.coherent
  obtain ⟨one, found⟩ := exists_state?_crowd valid Nat.one_lt_two
  have stays := mem_split_crowd valid small found
  rw [coherent.double.find?_eq, coherent.listTable_double,
    ListTable.find?_eq_head? (stumble_ne_lt 0), UInt64.toNat_zero, Nat.zero_mod]
  cases bucket_eq : (crowd count).listTable.split.bucket 0 with
  | nil =>
    rw [bucket_eq] at stays
    cases stays
  | cons first rest =>
    have here : first ∈ (crowd count).listTable.split.bucket 0 := bucket_eq ▸ List.mem_cons_self
    obtain ⟨entry, admitted, _⟩ := ListTable.leaves_iff.1 (List.mem_filter.1 here).2
    have found' : (crowd count).listTable.split.state? first = some entry.2 :=
      congrArg (Option.map Prod.snd) admitted
    have nonzero := ne_zero_of_mem_split valid small here
      ((state?_listTable (crowd count) first).symm.trans found')
    have equal : (crowd count).listTable.split.equal stumble 0 first = true :=
      ListTable.equal_iff.2 ⟨entry.2, found', if_neg nonzero⟩
    exact ⟨first, by rw [List.head?_cons, Option.filter_some, if_pos equal]⟩

/-- A stumbling admission doubles the buckets for a duplicate. -/
theorem exists_insert_crowd :
    ∃ id, (crowd count).insert stumble 0 0 =
      { answer := .duplicate id 0, set := (crowd count).double
        events := [.doubled (crowd count).bucketCount (crowd count).size] } := by
  obtain ⟨id, found⟩ := exists_find?_double_crowd valid small
  exact ⟨id, insert_of_late (find?_crowd valid small) (isFull_crowd valid) found⟩

theorem early_insert_crowd : Early count ((crowd count).insert stumble 0 0).set := by
  obtain ⟨id, inserted⟩ := exists_insert_crowd valid small
  rw [inserted]
  exact (onSchedule_crowd valid).double (reachableUnder_crowd valid).reachable.coherent
    (isFull_crowd valid)

theorem doublings_insert_crowd : ((crowd count).insert stumble 0 0).set.doublings = 1 := by
  obtain ⟨id, inserted⟩ := exists_insert_crowd valid small
  rw [inserted, doublings_double, doublings_crowd valid]

/-- Whatever the initial number of buckets, if keys can tell more buckets
apart, some run doubles them for a duplicate. -/
theorem exists_early :
    ∃ set : Visited Nat, RunsTo (fun _ => True) .always 0 (ofCount count) set ∧
      Early count set := by
  have leads : Leads (fun _ => True) (ofCount count) (crowd count) := leads_insertAll trivial _ _
  exact ⟨_, (leads.insert trivial 0 0).runsTo stumble trivial .always 0,
    early_insert_crowd valid small⟩

end Ahead

/-! ## What a caller can rely on -/

/-- The buckets stay, or they double once, and then one more state would have
filled exactly three quarters. -/
def DoublesIfDue (set set' : Visited α) : Prop :=
  (set'.doublings = set.doublings ∧ set'.bucketCount = set.bucketCount) ∨
    (set'.doublings = set.doublings + 1 ∧ set'.bucketCount = 2 * set.bucketCount ∧
      4 * (set.size + 1) = 3 * set.bucketCount)

theorem Scheduled.doublesIfDue_insert (scheduled : Scheduled initial set)
    (coherent : set.Coherent) (cmp : Comparator α) (key : UInt64) (state : α) :
    DoublesIfDue set (set.insert cmp key state).set := by
  have due := coherent.isFull_iff_eq scheduled.loose
  refine insert_cases (motive := fun outcome => DoublesIfDue set outcome.set) ?_ ?_ ?_ ?_
  · intro id _
    exact .inl ⟨rfl, rfl⟩
  · intro after _ _
    exact .inl ⟨doublings_place .., bucketCount_place ..⟩
  · intro after id _ full _
    refine .inr ⟨doublings_double set, ?_, due.1 full⟩
    rw [bucketCount_double, Nat.mul_comm]
  · intro after after' _ full _
    refine .inr ⟨?_, ?_, due.1 full⟩
    · rw [doublings_place, doublings_double]
    · rw [bucketCount_place, bucketCount_double, Nat.mul_comm]

theorem Scheduled.doublesIfDue_tryInsert (scheduled : Scheduled initial set)
    (coherent : set.Coherent) (reserve : Reserve) (cmp : Comparator α) (key : UInt64) (state : α) :
    DoublesIfDue set (set.tryInsert reserve cmp key state).set := by
  rcases tryInsert_cases reserve set cmp key state with ⟨failure, eq⟩ | eq
  · rw [eq]
    exact .inl ⟨rfl, rfl⟩
  · rw [eq]
    exact scheduled.doublesIfDue_insert coherent cmp key state

/-- What holds of a set that started with the initial number of buckets. -/
structure KeepsSchedule (initial : Nat) (set : Visited α) : Prop where
  bucketCount_eq : set.bucketCount = initial * 2 ^ set.doublings
  loose : 4 * set.size < 3 * set.bucketCount
  least : LeastCount initial set.size set.bucketCount ∨
    LeastCount initial (set.size + 1) set.bucketCount
  insert : ∀ cmp key state, DoublesIfDue set (set.insert cmp key state).set
  tryInsert : ∀ reserve cmp key state, DoublesIfDue set (set.tryInsert reserve cmp key state).set

/-- Whatever the comparators of a run are, the number of buckets is what the
admitted states call for, or one state more, and an admission doubles it at
most once and only when this state is due.  Under one total preorder it is
what the admitted states call for. -/
theorem RunsTo.keepsSchedule {count : Nat} (valid : ValidBucketCount count) {reserve : Reserve}
    {bound : Nat} (runs : RunsTo (fun _ => True) reserve bound (ofCount count) set) :
    KeepsSchedule count set ∧
      ∀ cmp, Std.TransCmp cmp → RunsTo (· = cmp) reserve bound (ofCount count) set →
        LeastCount count set.size set.bucketCount := by
  constructor
  · have coherent := runs.leads.coherent (coherent_ofCount valid)
    have scheduled := runs.scheduled valid
    exact {
      bucketCount_eq := scheduled.bucketCount_eq
      loose := scheduled.loose
      least := scheduled.imp OnSchedule.leastCount Early.leastCount
      insert := scheduled.doublesIfDue_insert coherent
      tryInsert := scheduled.doublesIfDue_tryInsert coherent }
  · intro cmp lawful runs'
    exact (runs'.onSchedule valid).leastCount

/-- The last admission of `767` states leaves `1024` buckets, and a lookup
that stumbles doubles them before the next state is there. -/
theorem keepsSchedule_crowd :
    ValidBucketCount 1024 ∧ Std.TransCmp (Comparator.natural : Comparator Nat) ∧
      RunsTo (fun _ => True) .always 0 (ofCount 1024) (crowd 1024) ∧
      RunsTo (· = Comparator.natural) .always 0 (ofCount 1024) (crowd 1024) ∧
      LeastCount 1024 (crowd 1024).size (crowd 1024).bucketCount ∧
      ∃ set : Visited Nat, RunsTo (fun _ => True) .always 0 (ofCount 1024) set ∧
        KeepsSchedule 1024 set ∧ ¬ LeastCount 1024 set.size set.bucketCount := by
  have valid := validBucketCount_minBuckets
  have leads : Leads (fun _ => True) (ofCount 1024) (crowd 1024) := leads_insertAll trivial _ _
  have lawful : Leads (· = Comparator.natural) (ofCount 1024) (crowd 1024) :=
    leads_insertAll (by rfl) _ _
  have runs := leads.runsTo .natural trivial .always 0
  have runs_lawful := lawful.runsTo .natural rfl .always 0
  obtain ⟨set, runs', early⟩ := exists_early valid (by decide)
  exact ⟨valid, inferInstance, runs, runs_lawful,
    (RunsTo.keepsSchedule valid runs).2 Comparator.natural inferInstance runs_lawful,
    set, runs', (RunsTo.keepsSchedule valid runs').1, early.not_leastCount⟩

end Visited

end StateSearch
