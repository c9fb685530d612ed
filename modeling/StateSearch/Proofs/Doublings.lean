import Mathlib.Algebra.Ring.Nat
import StateSearch.Proofs.Placement

/-!
# Doublings of any table

A doubling is a stable split, and one doubling after the other amounts to one
split on as many bits of the keys.  Nothing is asked of the table but that
each record stands in the chain of its key, so no comparator enters, and the
table need not come from a set.

There are three groups.

* The end of a doubling.  No walk along a chain needs its bound.
* Doublings one after the other.  `Spells.doubleTimes` gives the lists after
  any number of them.
* What a caller can rely on.
-/

namespace StateSearch

variable {α : Type}

namespace Buckets

variable {buckets : Buckets} {store : Store α}

/-! ## The end of a doubling -/

/-- The walk along every old bucket, on the table that the walks before it
left, takes one record after the other and comes to an end. -/
def DoublingEnds (buckets : Buckets) (store : Store α) : Prop :=
  ∀ bucket < buckets.count,
    let table := buckets.splitFirst store bucket
    let stays := fun key => bucketOf key (buckets.count * 2) == bucket
    let head := table.1.head bucket
    Split.DealsOut stays head { store := table.2 }
      (Split.dealAll stays table.2.size head { store := table.2 })

theorem Spells.doublingEnds {lists : Nat → List Id} (spells : buckets.Spells store lists) :
    buckets.DoublingEnds store := by
  intro bucket lt
  have partly := PartlySplit.splitFirst spells (Nat.le_of_lt lt)
  exact (partly.dealAll lt).2.2

/-! ## Doublings one after the other -/

/-- The table after so many doublings. -/
def doubleTimes (buckets : Buckets) (store : Store α) : Nat → Buckets × Store α
  | 0 => (buckets, store)
  | n + 1 =>
    let (buckets, store) := buckets.doubleTimes store n
    buckets.double store

theorem sameButChains_doubleTimes (buckets : Buckets) (store : Store α) (n : Nat) :
    store.SameButChains (buckets.doubleTimes store n).2 := by
  induction n with
  | zero => exact Store.Alike.refl store _
  | succ n ih => exact ih.trans (sameButChains_double _ _)

theorem count_doubleTimes (buckets : Buckets) (store : Store α) (n : Nat) :
    (buckets.doubleTimes store n).1.count = buckets.count * 2 ^ n := by
  induction n with
  | zero => exact (Nat.mul_one _).symm
  | succ n ih => rw [doubleTimes, count_double, ih, pow_succ, Nat.mul_assoc]

theorem doublings_doubleTimes (buckets : Buckets) (store : Store α) (n : Nat) :
    (buckets.doubleTimes store n).1.doublings = buckets.doublings + n := by
  induction n with
  | zero => rfl
  | succ n ih => rw [doubleTimes, doublings_double, ih, Nat.add_assoc]

theorem isPowerOfTwo_doubleTimes (power : buckets.count.isPowerOfTwo) (store : Store α) (n : Nat) :
    (buckets.doubleTimes store n).1.count.isPowerOfTwo := by
  obtain ⟨k, count_eq⟩ := power
  exact ⟨k + n, by rw [count_doubleTimes, count_eq, pow_add]⟩

/-- A remainder modulo twice a number tells the remainder modulo the number,
so what a filter for the first keeps passes one for the second. -/
theorem filter_leaves_double (store : Store α) (ids : List Id) (count bucket : Nat) :
    (ids.filter (store.leaves count (bucket % count))).filter (store.leaves (count * 2) bucket) =
      ids.filter (store.leaves (count * 2) bucket) := by
  rw [List.filter_filter]
  refine List.filter_congr fun id _ => ?_
  rw [Bool.and_eq_left_iff_imp]
  intro here
  obtain ⟨record, found, rfl⟩ := Store.leaves_iff.1 here
  exact Store.leaves_iff.2 ⟨record, found, (Nat.mod_mul_right_mod ..).symm⟩

/-- The record of an id belongs, after some doublings, where its key says. -/
theorem belongs_doubleTimes (store : Store α) (n : Nat) {count : Nat}
    (power : count.isPowerOfTwo) (bucket : Nat) :
    (buckets.doubleTimes store n).2.belongs count bucket = store.leaves count bucket := by
  rw [← Store.belongs_eq_leaves power]
  have same := sameButChains_doubleTimes buckets store n
  exact funext fun id => Store.belongs_congr (same.comp Record.key id) _ _

/-- No doubling at all leaves the lists as they are, since each holds the ids
of its bucket and no others. -/
theorem Spells.filter_leaves {lists : Nat → List Id} (spells : buckets.Spells store lists)
    (power : buckets.count.isPowerOfTwo) {bucket : Nat} (lt : bucket < buckets.count) :
    (lists (bucket % buckets.count)).filter (store.leaves (buckets.count * 2 ^ 0) bucket) =
      lists bucket := by
  rw [pow_zero, Nat.mul_one, Nat.mod_eq_of_lt lt, ← Store.belongs_eq_leaves power]
  exact List.filter_eq_self.2 fun id mem => (spells.mem_iff bucket lt id).1 mem

/-- After some doublings a list is the part of an old one whose keys leave
the number of the bucket as a remainder.  The lists before the last doubling
are known by induction, and the last one filters them once more. -/
theorem Spells.doubleTimes {lists : Nat → List Id} (spells : buckets.Spells store lists)
    (power : buckets.count.isPowerOfTwo) (n : Nat) :
    (buckets.doubleTimes store n).1.Spells (buckets.doubleTimes store n).2 fun bucket =>
      (lists (bucket % buckets.count)).filter (store.leaves (buckets.count * 2 ^ n) bucket) := by
  induction n with
  | zero =>
    refine ⟨fun bucket lt => ?_, fun bucket lt id => ?_⟩ <;> rw [spells.filter_leaves power lt]
    · exact spells.linked bucket lt
    · exact spells.mem_iff bucket lt id
  | succ n ih =>
    have power' := isPowerOfTwo_doubleTimes power store n
    have last := ih.double power'
    rw [count_doubleTimes] at power' last
    have lists_eq : ∀ bucket,
        ((lists (bucket % (buckets.count * 2 ^ n) % buckets.count)).filter
          (store.leaves (buckets.count * 2 ^ n) (bucket % (buckets.count * 2 ^ n)))).filter
          ((buckets.doubleTimes store n).2.belongs (buckets.count * 2 ^ n * 2) bucket) =
        (lists (bucket % buckets.count)).filter
          (store.leaves (buckets.count * 2 ^ (n + 1)) bucket) := by
      intro bucket
      rw [belongs_doubleTimes store n (Nat.isPowerOfTwo_mul_two_of_isPowerOfTwo power'),
        filter_leaves_double, Nat.mod_mul_right_mod, pow_succ, Nat.mul_assoc]
    rw [funext lists_eq] at last
    exact last

/-! ## What a caller can rely on -/

/-- A table whose chains are those of an older one, split on so many more
bits of the keys. -/
structure SplitOn (buckets : Buckets) (store : Store α) (bits : Nat)
    (table : Buckets × Store α) : Prop where
  count_eq : table.1.count = buckets.count * 2 ^ bits
  doublings_eq : table.1.doublings = buckets.doublings + bits
  /-- A chain is the part of an old one whose keys now belong there, in the
  old order. -/
  chain_eq : ∀ bucket < buckets.count * 2 ^ bits,
    table.1.chain table.2 bucket =
      (buckets.chain store (bucket % buckets.count)).filter
        (store.leaves (buckets.count * 2 ^ bits) bucket)
  /-- The links of every chain end, and its ids are those of its bucket. -/
  files : table.1.Files table.2
  /-- Every id is in the chains once. -/
  perm : (table.1.chains table.2).flatten.Perm (List.range store.size)
  /-- Keys, states, marks and the links of the worklist stay. -/
  same : store.SameButChains table.2

theorem Files.splitOn (files : buckets.Files store) (power : buckets.count.isPowerOfTwo) (n : Nat) :
    buckets.SplitOn store n (buckets.doubleTimes store n) := by
  have spells := ((files_iff power).1 files).doubleTimes power n
  have power' := isPowerOfTwo_doubleTimes power store n
  have same := sameButChains_doubleTimes buckets store n
  have files' := (files_iff power').2 spells.chain
  refine ⟨count_doubleTimes buckets store n, doublings_doubleTimes buckets store n,
    fun bucket lt => ?_, files', ?_, same⟩
  · rw [← count_doubleTimes buckets store n] at lt
    exact spells.chain_eq lt
  · rw [← same.size_eq]
    exact files'.perm_flatten (Nat.pos_of_isPowerOfTwo power')

/-- In every table in which each record stands in the chain of its key, in
whatever order, a doubling ends and splits each chain in two, and so does
every doubling after it.  After `n` of them the chains are those of one split
on `n` bits. -/
theorem Files.doublings_split (files : buckets.Files store)
    (valid : ValidBucketCount buckets.count) :
    buckets.DoublingEnds store ∧ buckets.SplitOn store 1 (buckets.double store) ∧
      ∀ n, (buckets.doubleTimes store n).1.DoublingEnds (buckets.doubleTimes store n).2 ∧
        buckets.SplitOn store n (buckets.doubleTimes store n) := by
  have spells := (files_iff valid.2).1 files
  refine ⟨spells.doublingEnds, files.splitOn valid.2 1, fun n => ⟨?_, files.splitOn valid.2 n⟩⟩
  exact (spells.doubleTimes valid.2 n).doublingEnds

/-- Three keys of one bucket, in an order that comparators at odds with each
other made.  The first of them moves, and the two behind it stay in order. -/
theorem doublings_split_lawless :
    ∃ outcome : Outcome Nat (List (Answer Nat)),
      Visited.run .always 0 (.ofCount 1024)
        [(fun _ _ => .gt, .insert 7 1), (fun _ _ => .gt, .insert 1031 1),
          (fun _ _ => .lt, .insert 2055 1)] = some outcome ∧
      outcome.set.buckets.Files outcome.set.store ∧
      ValidBucketCount outcome.set.buckets.count ∧
      outcome.set.chain 7 = [1, 0, 2] ∧ outcome.set.double.chain 7 = [0, 2] ∧
      outcome.set.buckets.DoublingEnds outcome.set.store ∧
      ∀ n, outcome.set.buckets.SplitOn outcome.set.store n
        (outcome.set.buckets.doubleTimes outcome.set.store n) := by
  have ended : (Visited.run .always 0 (.ofCount 1024)
      [(fun _ _ => .gt, .insert 7 1), (fun _ _ => .gt, .insert 1031 1),
        (fun _ _ => .lt, .insert 2055 1)]).map (fun outcome : Outcome Nat (List (Answer Nat)) =>
          (outcome.set.bucketCount, outcome.set.chain 7,
            (outcome.set.chain 7).filter (outcome.set.store.leaves 2048 7))) =
      some (1024, [1, 0, 2], [0, 2]) := by decide +kernel
  obtain ⟨outcome, ran, told⟩ := Option.map_eq_some_iff.1 ended
  obtain ⟨count_eq, told⟩ := Prod.mk.inj told
  obtain ⟨chain_eq, kept⟩ := Prod.mk.inj told
  change outcome.set.buckets.count = 1024 at count_eq
  have reachable : outcome.set.Reachable :=
    ⟨1024, .always, 0, validBucketCount_minBuckets, _, outcome, fun _ _ => trivial, ran, rfl⟩
  have files := reachable.coherent.files
  have valid : ValidBucketCount outcome.set.buckets.count := reachable.coherent.valid
  obtain ⟨ends, once, times⟩ := files.doublings_split valid
  have halved := once.chain_eq 7 (by rw [count_eq]; decide)
  rw [count_eq] at halved
  exact ⟨outcome, ran, files, valid, chain_eq, halved.trans kept, ends, fun n => (times n).2⟩

end Buckets

end StateSearch
